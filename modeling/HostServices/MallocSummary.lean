import HostServices.CallSite
import HostServices.Category
import HostServices.Checked
import HostServices.Counter

/-!
# Malloc summaries

Counters for each category with their total, and counters for each call site.
-/

namespace HostServices

/-- The counters of every category, and their total. -/
structure MallocSummary where
  category : Category → Counter := fun _ => {}
  total : Counter := {}

namespace MallocSummary

/-- The summary with another counter for `c`. -/
def setCategory (s : MallocSummary) (c : Category) (counter : Counter) : MallocSummary :=
  { s with category := fun d => if d = c then counter else s.category d }

/-- Charge one allocation to its category and to the total. -/
def allocate (c : Category) (bytes : UInt64) : Op MallocSummary Unit := do
  Op.zoom (·.category c) (fun s k => s.setCategory c k) (Counter.allocate bytes)
  Op.zoom (·.total) (fun s k => { s with total := k }) (Counter.allocate bytes)

/-- Discharge one allocation. -/
def deallocate (s : MallocSummary) (c : Category) (bytes : UInt64) : MallocSummary :=
  let s := s.setCategory c ((s.category c).deallocate bytes)
  { s with total := s.total.deallocate bytes }

end MallocSummary

/-- Who asked for a block: where, on which stack, and for which category. -/
structure SiteKey where
  site : CallSite
  stack : CallStack
  category : Category
  deriving DecidableEq

/-- The counters of each requester, in order of their first request. -/
structure SiteTable where
  entries : List (SiteKey × Counter) := []

namespace SiteTable

/-- Replace the counter at a place. -/
def setCounter (t : SiteTable) (i : Nat) (counter : Counter) : SiteTable :=
  ⟨t.entries.modify i fun (key, _) => (key, counter)⟩

/-- The counter at a place. -/
def counterAt (t : SiteTable) (i : Nat) : Counter :=
  (t.entries[i]?.map (·.2)).getD {}

/-- The table with an entry for `key`, and the place of that entry. -/
def place (t : SiteTable) (key : SiteKey) : SiteTable × Nat :=
  match t.entries.findIdx? (·.1 = key) with
  | some i => (t, i)
  | none => (⟨t.entries ++ [(key, {})]⟩, t.entries.length)

/-- Charge one allocation and answer the requester's marker: its place, counted from one. The
counter is found by the marker, so there is none when the marker has gone round to zero. -/
def allocate (key : SiteKey) (bytes : UInt64) : Op SiteTable UInt32 := do
  let (t, i) := (← get).place key
  set t
  let marker := UInt32.ofNat (i + 1)
  let slot ← Op.check (Checked.sub marker.toUInt64 1)
  Op.zoom (·.counterAt slot.toNat) (fun t k => t.setCounter slot.toNat k) (Counter.allocate bytes)
  return marker

/-- Discharge one allocation of the requester with a marker; marker zero stands for none. -/
def deallocate (t : SiteTable) (marker : UInt32) (bytes : UInt64) : SiteTable :=
  match marker.toNat with
  | 0 => t
  | i + 1 => ⟨t.entries.modify i fun (key, counter) => (key, counter.deallocate bytes)⟩

end SiteTable

end HostServices
