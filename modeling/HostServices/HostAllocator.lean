import HostServices.Memory

/-!
# Host allocators

The allocator underneath a heap. It has a state of its own and the memory that its blocks are in.
`Gate` lets calls fail on demand and counts them.
-/

namespace HostServices

/-- The state of a host allocator, and memory. -/
structure Machine (σ : Type) where
  host : σ
  memory : Memory

/-- The calls of a host allocator; no block is its answer to a call that fails. -/
class HostAllocator (σ : Type) where
  malloc : UInt64 → Machine σ → Option UInt64 × Machine σ
  realloc : UInt64 → UInt64 → Machine σ → Option UInt64 × Machine σ
  free : UInt64 → Machine σ → Machine σ

/-- An allocator whose calls are counted and fail while the gate is shut. -/
structure Gate (σ : Type) where
  inner : σ
  failMalloc : Bool := false
  failRealloc : Bool := false
  mallocs : Nat := 0
  reallocs : Nat := 0
  frees : Nat := 0

namespace Gate

variable {σ : Type}

/-- The machine behind the gate. -/
def enter (m : Machine (Gate σ)) : Machine σ :=
  ⟨m.host.inner, m.memory⟩

/-- Take over what a call behind the gate `g` left. -/
def leave (g : Gate σ) (m : Machine σ) : Machine (Gate σ) :=
  ⟨{ g with inner := m.host }, m.memory⟩

/-- A call that may be shut out. -/
def pass (shut : Bool) (g : Gate σ) (call : Machine σ → Option UInt64 × Machine σ)
    (m : Machine σ) : Option UInt64 × Machine (Gate σ) :=
  if shut then (none, leave g m)
  else
    let (p, m) := call m
    (p, leave g m)

instance [HostAllocator σ] : HostAllocator (Gate σ) where
  malloc size m :=
    pass m.host.failMalloc { m.host with mallocs := m.host.mallocs + 1 }
      (HostAllocator.malloc size) (enter m)
  realloc p size m :=
    pass m.host.failRealloc { m.host with reallocs := m.host.reallocs + 1 }
      (HostAllocator.realloc p size) (enter m)
  free p m :=
    leave { m.host with frees := m.host.frees + 1 } (HostAllocator.free p (enter m))

end Gate

end HostServices
