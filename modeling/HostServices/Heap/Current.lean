import HostServices.Heap

/-!
# A heap with one block in use
-/

namespace HostServices

/-- A heap, and the address and size of the block in use. -/
structure CurrentBlock (σ : Type) where
  heap : Heap σ
  block : Option (UInt64 × UInt64) := none

namespace CurrentBlock

variable {σ : Type} [HostAllocator σ]

/-- Run an operation on the heap. -/
def onHeap {α : Type} (op : Op (Heap σ) α) : Op (CurrentBlock σ) α :=
  Op.zoom (·.heap) (fun s h => { s with heap := h }) op

/-- Resize the block in use; without one, allocate. -/
def realloc (size : UInt64) (c : Category) (origin : Origin) : Op (CurrentBlock σ) Bool := do
  match ← onHeap (Heap.realloc ((← get).block.map (·.1)) size c origin) with
  | none => return false
  | some p =>
    modify fun s => { s with block := some (p, Word.max size 1) }
    return true

/-- Fill the block in use. -/
def fill (b : UInt8) (s : CurrentBlock σ) : CurrentBlock σ :=
  match s.block with
  | none => s
  | some (p, size) => { s with heap := s.heap.setMemory (s.heap.memory.fill p size b) }

/-- The first bytes of the block in use. -/
def read (s : CurrentBlock σ) (len : Nat) : Option (List UInt8) :=
  s.block.map fun (p, size) => s.heap.memory.read p (Nat.min size.toNat len)

/-- Release the block in use. -/
def free : Op (CurrentBlock σ) Unit := do
  onHeap (Heap.free ((← get).block.map (·.1)))
  modify fun s => { s with block := none }

end CurrentBlock

end HostServices
