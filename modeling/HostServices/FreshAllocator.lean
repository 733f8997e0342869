import HostServices.AddressMap
import HostServices.HostAllocator
import HostServices.Word

/-!
# An allocator without reuse

A host allocator that never hands out an address twice. Requests beyond the address space fail.
-/

namespace HostServices

/-- The sizes of the live blocks, and where the next block starts. -/
structure FreshAllocator where
  live : AddressMap UInt64 := .empty
  next : UInt64 := 0x100000000000

namespace FreshAllocator

/-- The largest request that is served. -/
def largest : UInt64 := 0x100000000000

/-- Hand out a block behind all earlier ones. -/
def malloc (size : UInt64) (m : Machine FreshAllocator) : Option UInt64 × Machine FreshAllocator :=
  let start := m.host.next
  let after := start.toNat + (size.toNat / 16 + 1) * 16
  if largest < size ∨ 1 <<< 62 < after then (none, m)
  else
    (some start, { m with host := { live := m.host.live.insert start size, next := .ofNat after } })

/-- Take a block back. -/
def free (p : UInt64) (m : Machine FreshAllocator) : Machine FreshAllocator :=
  { m with host := { m.host with live := m.host.live.erase p } }

/-- Move a block to a fresh place. -/
def realloc (p size : UInt64) (m : Machine FreshAllocator) :
    Option UInt64 × Machine FreshAllocator :=
  match m.host.live.get? p with
  | none => (none, m)
  | some oldSize =>
    match malloc size m with
    | (none, m) => (none, m)
    | (some q, m) =>
      (some q, free p { m with memory := m.memory.copy p q (Word.min oldSize size) })

instance : HostAllocator FreshAllocator where
  malloc := malloc
  realloc := realloc
  free := free

end FreshAllocator

end HostServices
