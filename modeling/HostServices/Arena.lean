import HostServices.AddressMap
import HostServices.HostAllocator
import HostServices.Word

/-!
# The arena

A host allocator over one MiB of addresses. A freed block keeps its bytes until it is handed out
again; a fresh one is full of a garbage byte.
-/

namespace HostServices

/-- A block of the arena. -/
structure Arena.Block where
  /-- The requested size. -/
  size : UInt64
  /-- The number of bytes that belong to the block. -/
  capacity : UInt64

/-- The live blocks, the freed ones with the latest first, and the bytes never handed out. -/
structure Arena where
  live : AddressMap Arena.Block := .empty
  freed : List (UInt64 × UInt64) := []
  bump : UInt64 := 0
  /-- Resizing damages a byte. -/
  breakRealloc : Bool := false

namespace Arena

/-- The first address. -/
def base : UInt64 := 0x200000000000

/-- The number of bytes. -/
def length : UInt64 := 1048576

/-- What fresh bytes are filled with. -/
def garbage : UInt8 := 0xaa

/-- All `len` bytes at `addr` belong to the arena. -/
def covers (addr : UInt64) (len : Nat) : Bool :=
  base.toNat ≤ addr.toNat && addr.toNat + len ≤ base.toNat + length.toNat

/-- The address of a block with `capacity` bytes: the latest freed block of that capacity, else
bytes never handed out. -/
def take (a : Arena) (capacity : UInt64) : Option (UInt64 × Arena) :=
  match a.freed.find? (·.2 == capacity) with
  | some (addr, c) => some (addr, { a with freed := a.freed.erase (addr, c) })
  | none =>
    if capacity ≤ length - a.bump then
      some (base + a.bump, { a with bump := a.bump + capacity })
    else none

/-- Hand out a block. -/
def malloc (size : UInt64) (m : Machine Arena) : Option UInt64 × Machine Arena :=
  let capacity := Word.alignUp size 16
  if length < size then (none, m)
  else
    match m.host.take capacity with
    | none => (none, m)
    | some (addr, a) =>
      (some addr, ⟨{ a with live := a.live.insert addr ⟨size, capacity⟩ },
        m.memory.fill addr capacity garbage⟩)

/-- Take a block back. -/
def free (p : UInt64) (m : Machine Arena) : Machine Arena :=
  match m.host.live.get? p with
  | none => m
  | some block =>
    { m with host := { m.host with
      live := m.host.live.erase p
      freed := (p, block.capacity) :: m.host.freed } }

/-- The block of `size` bytes that a block becomes: itself if it has room, else a fresh one with
its bytes. -/
def move (p : UInt64) (block : Block) (size : UInt64) (m : Machine Arena) :
    Option UInt64 × Machine Arena :=
  if size ≤ block.capacity then
    (some p, { m with host := { m.host with
      live := m.host.live.insert p { block with size := size } } })
  else
    match malloc size m with
    | (none, m) => (none, m)
    | (some q, m) => (some q, free p { m with memory := m.memory.copy p q block.size })

/-- Resize a block. -/
def realloc (p size : UInt64) (m : Machine Arena) : Option UInt64 × Machine Arena :=
  match m.host.live.get? p with
  | none => (none, m)
  | some block =>
    match move p block size m with
    | (none, m) => (none, m)
    | (some q, m) =>
      let memory := m.memory.fill (q + block.size) (Word.subSat size block.size) garbage
      let memory :=
        if m.host.breakRealloc && 16 < size then
          memory.write (q + 16) #[memory (q + 16) ^^^ 0xff]
        else memory
      (some q, { m with memory })

instance : HostAllocator Arena where
  malloc := malloc
  realloc := realloc
  free := free

end Arena

end HostServices
