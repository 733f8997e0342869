import HostServices.Op

/-!
# Counters

A counter of allocations and their bytes, with the highest values seen. Both numbers are words
that go round; charging an allocation notices when one does, after it has happened.
-/

namespace HostServices

/-- Current and highest number of allocations and bytes. -/
structure Counter where
  count : UInt64 := 0
  bytes : UInt64 := 0
  peakCount : UInt64 := 0
  peakBytes : UInt64 := 0
  deriving DecidableEq, Repr

namespace Counter

/-- Charge one allocation. The count is added before the bytes, and the peaks are raised last. -/
def allocate (bytes : UInt64) : Op Counter Unit := do
  let old ← get
  set { old with count := old.count + 1 }
  let count ← Op.add old.count 1
  modify fun c => { c with bytes := c.bytes + bytes }
  let total ← Op.add old.bytes bytes
  modify fun c => { c with
    peakCount := Word.max c.peakCount count
    peakBytes := Word.max c.peakBytes total }

/-- Discharge one allocation. -/
def deallocate (c : Counter) (bytes : UInt64) : Counter :=
  { c with count := c.count - 1, bytes := c.bytes - bytes }

end Counter

end HostServices
