import HostServices.AddressMap
import HostServices.CallSite
import HostServices.Category
import HostServices.Checked

/-!
# Reserved regions

A reservation of address space with the ranges of it that are committed. Ranges are kept by their
start, with the end as the value. A search for the ranges near an address walks back from it and
ends at the first range that does not fit, so it relies on the ranges being apart from each other.
-/

namespace HostServices

/-- A reservation and its committed ranges. -/
structure Region where
  base : UInt64
  size : UInt64
  category : Category
  site : CallSite
  committed : AddressMap UInt64 := .empty

namespace Region

/-- One past the last byte. -/
def finish (r : Region) : UInt64 :=
  r.base + r.size

/-- The committed ranges in address order. -/
def ranges (r : Region) : List (UInt64 × UInt64) :=
  r.committed.toList

/-- The number of committed bytes. -/
def committedSize (r : Region) : Except Fault UInt64 :=
  r.ranges.foldlM (fun sum (start, finish) => do Checked.add sum (← Checked.sub finish start)) 0

/-- The reservation holds `addr`. -/
def contains (r : Region) (addr : UInt64) : Bool :=
  r.base ≤ addr && addr < r.finish

/-- A committed range holds `addr`. -/
def isCommitted (r : Region) (addr : UInt64) : Bool :=
  (r.committed.upTo addr).head?.any fun (_, finish) => addr < finish

/-- `[start, stop)` cut to the reservation, unless nothing is left. -/
def clip (r : Region) (start stop : UInt64) : Option (UInt64 × UInt64) :=
  let lo := Word.max start r.base
  let hi := Word.min stop r.finish
  if lo < hi then some (lo, hi) else none

/-- Put a range in the place of those that overlap or touch it, and widen it to cover them. -/
def merge (ranges : AddressMap UInt64) (start stop : UInt64) : AddressMap UInt64 :=
  let touching := (ranges.upTo stop).takeWhile fun (_, e) => start ≤ e
  let lo := touching.foldl (fun lo (s, _) => Word.min lo s) start
  let hi := touching.foldl (fun hi (_, e) => Word.max hi e) stop
  (ranges.eraseAll (touching.map (·.1))).insert lo hi

/-- Commit the part of `[start, stop)` inside the reservation. -/
def commit (r : Region) (start stop : UInt64) : Region :=
  match r.clip start stop with
  | none => r
  | some (lo, hi) => { r with committed := merge r.committed lo hi }

/-- What is left of the range `[s, e)` without `[start, stop)`. -/
def remains (start stop s e : UInt64) : List (UInt64 × UInt64) :=
  (if s < start then [(s, start)] else []) ++ (if stop < e then [(stop, e)] else [])

/-- Uncommit `[start, stop)`. -/
def uncommit (r : Region) (start stop : UInt64) : Region :=
  let hit := (r.committed.below stop).takeWhile fun (_, e) => start < e
  let kept := hit.flatMap fun (s, e) => remains start stop s e
  { r with committed := (r.committed.eraseAll (hit.map (·.1))).insertAll kept }

/-- The part of the reservation inside `[start, stop)`, unless it is empty. -/
def slice (r : Region) (start stop : UInt64) : Option Region :=
  (r.clip start stop).map fun (lo, hi) =>
    let pieces := r.ranges.filterMap fun (s, e) =>
      let s := Word.max s lo
      let e := Word.min e hi
      if s < e then some (s, e) else none
    { r with base := lo, size := hi - lo, committed := AddressMap.empty.insertAll pieces }

end Region

end HostServices
