import HostServices.Op
import HostServices.Region

/-!
# The region tracker

The reservations made through the virtual memory manager, by their base. A new reservation drops
the old ones that it overlaps, since the host gives out such a range only after they are gone. A
release may take away any part of the tracked regions, and cuts those it meets.
-/

namespace HostServices

/-- The tracked regions. -/
structure Tracker where
  regions : AddressMap Region := .empty

namespace Tracker

/-- The regions that reach into `[start, stop)`, from the highest down. -/
def overlapping (t : Tracker) (start stop : UInt64) : List (UInt64 × Region) :=
  (t.regions.below stop).takeWhile fun (_, r) => start < r.finish

/-- The region that holds `addr`, with its key. -/
def entryAt (t : Tracker) (addr : UInt64) : Option (UInt64 × Region) :=
  (t.regions.upTo addr).head?.filter fun (_, r) => r.contains addr

/-- The region that holds `addr`. -/
def regionAt (t : Tracker) (addr : UInt64) : Option Region :=
  (t.entryAt addr).map (·.2)

/-- Change the region that holds `addr`, if there is one. -/
def adjust (t : Tracker) (addr : UInt64) (f : Region → Region) : Tracker :=
  match t.entryAt addr with
  | none => t
  | some (k, r) => ⟨t.regions.insert k (f r)⟩

/-- A report about regions. -/
def note (severity : Severity) (message : String) : Op Tracker Unit :=
  Op.report severity .vm message

/-- The text of a range. -/
def rangeText (start stop : UInt64) : String :=
  s!"[{Hex.word start}, {Hex.word stop})"

/-- Report that the reservation of `[base, stop)` drops the region `old`. -/
def noteReplaced (base size stop : UInt64) (old : Region) : Op Tracker Unit :=
  if old.base = base ∧ old.size = size then
    note .trace s!"Re-reserved {rangeText base stop}"
  else
    note .debug
      s!"Reservation {rangeText base stop} replaces tracked region {rangeText old.base old.finish}"

/-- Add a reservation in the place of those it overlaps. -/
def reserve (base size : UInt64) (c : Category) (site : CallSite) : Op Tracker Unit := do
  if size = 0 then
    return
  let stop ← Op.add base size
  let stale := (← get).overlapping base stop
  stale.forM fun (_, old) => noteReplaced base size stop old
  modify fun t => ⟨(t.regions.eraseAll (stale.map (·.1))).insert base ⟨base, size, c, site, .empty⟩⟩

/-- Change the category of the region that holds `addr`. -/
def setCategory (addr : UInt64) (c : Category) (t : Tracker) : Tracker :=
  t.adjust addr fun r => { r with category := c }

/-- Commit what the region at `addr` has of the range; false when no region holds `addr`. -/
def commit (addr size : UInt64) : Op Tracker Bool := do
  if ((← get).entryAt addr).isSome then
    modify (·.adjust addr (·.commit addr (Word.addSat addr size)))
    return true
  else
    note .debug s!"Commit at {Hex.word addr} outside any tracked reservation"
    return false

/-- Add a reservation that is committed in full. -/
def reserveCommitted (base size : UInt64) (c : Category) (site : CallSite) : Op Tracker Unit := do
  reserve base size c site
  let _ ← commit base size

/-- Uncommit the range in the region at `addr`; false when no region holds `addr`. -/
def uncommit (addr size : UInt64) : Op Tracker Bool := do
  let found := ((← get).entryAt addr).isSome
  modify (·.adjust addr (·.uncommit addr (Word.addSat addr size)))
  return found

/-- What is left of a region without `[start, stop)`. -/
def remains (start stop : UInt64) (r : Region) : List Region :=
  (r.slice r.base start).toList ++ (r.slice stop r.finish).toList

/-- Take a range away from the regions; false when it meets none. -/
def release (addr size : UInt64) : Op Tracker Bool := do
  let stop := Word.addSat addr size
  match (← get).overlapping addr stop with
  | [] =>
    note .debug s!"Release of {rangeText addr stop} matches no tracked reservation"
    return false
  | hit =>
    let kept := hit.flatMap fun (_, r) => remains addr stop r
    modify fun t => ⟨(t.regions.eraseAll (hit.map (·.1))).insertAll (kept.map fun r => (r.base, r))⟩
    return true

end Tracker

end HostServices
