import HostServices.Heap

/-!
# A heap with its ledger at hand

A ledger is made before the heap takes it over. Until then it lies beside the heap, afterwards
within; operations on the ledger reach it in both places.
-/

namespace HostServices

/-- A heap, and the ledger it is to get. -/
structure StagedHeap (σ : Type) where
  heap : Heap σ
  /-- The ledger before it is installed. -/
  aside : Ledger

namespace StagedHeap

variable {σ : Type}

/-- The ledger, wherever it is. -/
def ledger (s : StagedHeap σ) : Ledger :=
  s.heap.ledger?.getD s.aside

/-- Change the ledger, wherever it is. -/
def setLedger (s : StagedHeap σ) (l : Ledger) : StagedHeap σ :=
  match s.heap with
  | .early _ => { s with aside := l }
  | .ready h => { s with heap := .ready { h with ledger := l } }

/-- Change the host allocator. -/
def mapHost (f : σ → σ) (s : StagedHeap σ) : StagedHeap σ :=
  let m := s.heap.base.machine
  { s with heap := s.heap.setMachine { m with host := f m.host } }

/-- Run an operation on the heap. -/
def onHeap {α : Type} (op : Op (Heap σ) α) : Op (StagedHeap σ) α :=
  Op.zoom (·.heap) (fun s h => { s with heap := h }) op

/-- Run an operation on the ledger. -/
def onLedger {α : Type} (op : Op Ledger α) : Op (StagedHeap σ) α :=
  Op.zoom ledger setLedger op

/-- Take over a ledger and memory. -/
def setTracked (s : StagedHeap σ) (t : TrackedMemory) : StagedHeap σ :=
  let s := s.setLedger t.ledger
  { s with heap := s.heap.setMemory t.memory }

/-- Run an operation on the ledger and memory. -/
def onTracked {α : Type} (op : Op TrackedMemory α) : Op (StagedHeap σ) α :=
  Op.zoom (fun s => ⟨s.ledger, s.heap.memory⟩) setTracked op

/-- Take a block from the allocator behind the gate, whatever the gate says, and record it. -/
def recordFresh [HostAllocator σ] (size : UInt64) (c : Category) (origin : Origin) :
    Op (StagedHeap (Gate σ)) (Option UInt64) := do
  let s ← get
  let m := s.heap.base.machine
  match HostAllocator.malloc (size + s.ledger.overhead) (Gate.enter m) with
  | (none, _) => return none
  | (some outer, behind) =>
    set { s with heap := s.heap.setMachine (Gate.leave m.host behind) }
    some <$> onTracked (TrackedMemory.recordMalloc outer size c origin)

end StagedHeap

end HostServices
