import HostServices.AddressSpace.Area

/-!
# The address space of a process

Areas that do not overlap, the bytes that were written into private pages, and at most one file.
The calls take addresses and lengths as words and answer with error codes, in the order of the
checks of the host: lengths are rounded up to pages, a fixed address has to be a multiple of the
page size, and nothing lies at or above the limit.
-/

namespace HostServices

/-- A file that can be mapped. Bytes beyond its length may be there in its last page. -/
structure MappedFile where
  descriptor : Int
  length : Nat
  byte : Nat → UInt8

/-- The areas of a process and their contents. -/
structure AddressSpace where
  areas : List Area := []
  /-- The bytes of private pages that were written. -/
  own? : Nat → Option UInt8 := fun _ => none
  file : Option MappedFile := none
  /-- How the host refuses large pages of a size; it hands out the others. -/
  refusal : UInt64 → Option Errno := fun size =>
    if size = 2097152 ∨ size = 1073741824 then some .noMemory else some .invalid

namespace AddressSpace

/-- No address of a process reaches this limit. -/
def limit : Nat := 0x7ffffffff000

/-- The limit of areas that are placed anywhere. -/
def ceiling : Nat := 0x7f0000000000

/-- The most memory that one area may take. -/
def capacity : Nat := 1 <<< 40

/-- A length in whole pages. -/
def roundUp (n : Nat) : Nat :=
  (n + (pageSize - 1)) / pageSize * pageSize

/-- The first address of a page. -/
def pageOf (a : Nat) : Nat :=
  a / pageSize * pageSize

/-- Nothing lies in `[lo, hi)`. -/
def isFree (s : AddressSpace) (lo hi : Nat) : Bool :=
  s.areas.all fun r => !r.overlaps lo hi

/-- The area that an address lies in. -/
def areaAt (s : AddressSpace) (a : Nat) : Option Area :=
  s.areas.find? (·.covers a)

/-- The bytes that were written, without those in `[lo, hi)`. -/
def forget (s : AddressSpace) (lo hi : Nat) : AddressSpace :=
  { s with own? := fun a => if lo ≤ a ∧ a < hi then none else s.own? a }

/-- Nothing is left in `[lo, hi)`. -/
def remove (s : AddressSpace) (lo hi : Nat) : AddressSpace :=
  { s.forget lo hi with areas := s.areas.flatMap (·.outside lo hi) }

/-- An area in place of what was there. -/
def place (s : AddressSpace) (r : Area) : AddressSpace :=
  let s := s.remove r.start r.stop
  { s with areas := r :: s.areas }

/-- Change all areas within `[lo, hi)`. -/
def changeWithin (s : AddressSpace) (lo hi : Nat) (f : Area → Area) : AddressSpace :=
  { s with areas := s.areas.flatMap (·.changeWithin lo hi f) }

/-- The highest free range of `len` bytes below the ceiling, by its start. -/
def room? (s : AddressSpace) (len : Nat) : Option Nat :=
  let stops := ceiling :: s.areas.map (·.start)
  let starts := stops.filterMap fun stop =>
    if pageSize + len ≤ stop ∧ stop ≤ ceiling ∧ s.isFree (stop - len) stop then some (stop - len)
    else none
  starts.foldl (fun best a => some (best.elim a (Nat.max a))) none

/-- The start of a mapping of `len` bytes. -/
def locate (s : AddressSpace) (p : Placement) (len : Nat) : HostResult Nat :=
  let at_ (a : Nat) : HostResult Nat :=
    if limit < a + len then .error (.code .noMemory)
    else if a % pageSize ≠ 0 then .error (.code .invalid)
    else .ok a
  match p with
  | .anywhere => (s.room? len).elim (.error (.code .noMemory)) .ok
  | .fixed addr => at_ addr.toNat
  | .fixedIfFree addr => do
    let a ← at_ addr.toNat
    if s.isFree a (a + len) then .ok a else .error (.code .alreadyMapped)

/-- A mapping may have its backing: zeros from what the host has, or the file from an offset that
the host can count. -/
def admits (len : Nat) (access : Access) : Backing → HostResult Unit
  | .zeros true => .ok ()
  | .zeros false => if access.write && capacity < len then .error (.code .noMemory) else .ok ()
  | .file offset shared =>
    if (1 <<< 63 - 1 - len) / pageSize < offset / pageSize then .error (.code .overflow)
    else if access.write && !shared && capacity < len then .error (.code .noMemory)
    else .ok ()

/-- Map some bytes. -/
def map (p : Placement) (bytes : UInt64) (access : Access) (backing : Backing) :
    StateM AddressSpace (HostResult UInt64) := fun s =>
  let len := roundUp bytes.toNat
  let start : HostResult Nat := do
    if bytes = 0 then throw (.code .invalid)
    if limit < len then throw (.code .noMemory)
    let start ← s.locate p len
    admits len access backing
    return start
  match start with
  | .error e => (.error e, s)
  | .ok a => (.ok (.ofNat a), s.place ⟨a, a + len, access, backing, false⟩)

/-- Map the file. -/
def mapFile (p : Placement) (bytes : UInt64) (access : Access) (descriptor : Int)
    (offset : UInt64) (shared : Bool) : StateM AddressSpace (HostResult UInt64) := do
  if offset.toNat % pageSize ≠ 0 then return .error (.code .invalid)
  match (← get).file with
  | some f =>
    if f.descriptor = descriptor then map p bytes access (.file offset.toNat shared)
    else return .error (.code .badDescriptor)
  | none => return .error (.code .badDescriptor)

/-- Map some bytes onto large pages. -/
def mapLarge (addr bytes size : UInt64) (access : Access) :
    StateM AddressSpace (HostResult UInt64) := do
  match (← get).refusal size with
  | some e => return .error (.code e)
  | none => map (.fixed addr) bytes access (.zeros false)

/-- Remove what lies in a range. -/
def unmap (addr bytes : UInt64) : StateM AddressSpace (HostResult Unit) := fun s =>
  let a := addr.toNat
  if a % pageSize ≠ 0 ∨ limit < a + bytes.toNat ∨ bytes = 0 then (.error (.code .invalid), s)
  else (.ok (), s.remove a (a + roundUp bytes.toNat))

/-- Where the mapped pages from `a` on end, of those below `hi`, looking at `n` areas at most. -/
def mappedUntil (s : AddressSpace) (hi : Nat) : Nat → Nat → Nat
  | 0, a => a
  | n + 1, a =>
    match s.areaAt a with
    | some r => if a < hi then mappedUntil s hi n (Nat.min r.stop hi) else a
    | none => a

/-- Forbid all access to a range. Where a page of it is missing, the pages before that one have
changed. -/
def protect (addr bytes : UInt64) : StateM AddressSpace (HostResult Unit) := fun s =>
  let lo := addr.toNat
  let hi := lo + roundUp bytes.toNat
  if lo % pageSize ≠ 0 then (.error (.code .invalid), s)
  else
    let reached := s.mappedUntil hi s.areas.length lo
    let changed := s.changeWithin lo reached fun r => { r with access := .nothing }
    (if reached = hi then .ok () else .error (.code .noMemory), changed)

/-- The problem with a range that is given advice about. -/
def adviceProblem (s : AddressSpace) (lo hi : Nat) : HostResult Unit :=
  if lo % pageSize ≠ 0 ∨ UInt64.size ≤ hi then .error (.code .invalid)
  else if s.mappedUntil hi s.areas.length lo = hi then .ok ()
  else .error (.code .noMemory)

/-- The contents of a range may be dropped. -/
def discard (addr bytes : UInt64) : StateM AddressSpace (HostResult Unit) := fun s =>
  let lo := addr.toNat
  let hi := lo + roundUp bytes.toNat
  match s.adviceProblem lo hi with
  | .error (.code .invalid) => (.error (.code .invalid), s)
  | r => (r, s.forget lo hi)

/-- Large pages are preferred in a range. -/
def preferLarge (addr bytes : UInt64) (s : AddressSpace) : AddressSpace :=
  let lo := addr.toNat
  let hi := lo + roundUp bytes.toNat
  match s.adviceProblem lo hi with
  | .error (.code .invalid) => s
  | _ => s.changeWithin lo hi fun r => { r with large := true }

/-- The file has at least some length. -/
def grow (descriptor : Int) (bytes : UInt64) : StateM AddressSpace (HostResult Unit) := do
  match (← get).file with
  | some f =>
    if f.descriptor ≠ descriptor then return .error (.code .badDescriptor)
    if bytes = 0 then return .error (.code .invalid)
    modify fun s => { s with file := some { f with length := Nat.max f.length bytes.toNat } }
    return .ok ()
  | none => return .error (.code .badDescriptor)

/-- A byte of the file, if its page is there. -/
def fileByte? (s : AddressSpace) (offset : Nat) : Option UInt8 :=
  s.file.bind fun f => if offset < roundUp f.length then some (f.byte offset) else none

/-- The byte at an address of an area. -/
def content? (s : AddressSpace) (r : Area) (a : Nat) : Option UInt8 :=
  match r.backing with
  | .zeros _ => some ((s.own? a).getD 0)
  | .file offset true => s.fileByte? (offset + (a - r.start))
  | .file offset false => (s.own? a).or (s.fileByte? (offset + (a - r.start)))

/-- The byte at an address, if it can be read. -/
def byte? (s : AddressSpace) (a : Nat) : Option UInt8 :=
  (s.areaAt a).bind fun r => if r.access.read then s.content? r a else none

/-- A page of an area that is private from now on. -/
def detach (s : AddressSpace) (r : Area) (page : Nat) : AddressSpace :=
  { s with own? := fun a =>
      if page ≤ a ∧ a < page + pageSize then s.content? r a else s.own? a }

/-- Put a byte of an area where it belongs. -/
def store (s : AddressSpace) (r : Area) (a : Nat) (b : UInt8) : AddressSpace :=
  match r.backing with
  | .file offset true =>
    let i := offset + (a - r.start)
    { s with file := s.file.map fun f => { f with byte := fun j => if j = i then b else f.byte j } }
  | _ =>
    let s := s.detach r (pageOf a)
    { s with own? := fun c => if c = a then some b else s.own? c }

/-- Write a byte, if that is allowed. -/
def writeByte? (s : AddressSpace) (a : Nat) (b : UInt8) : Option AddressSpace :=
  match s.areaAt a with
  | some r => if r.access.write && (s.content? r a).isSome then some (s.store r a b) else none
  | none => none

/-- Write bytes up to the first that cannot be written. -/
def write (s : AddressSpace) (a : Nat) : List UInt8 → Bool × AddressSpace
  | [] => (true, s)
  | b :: bs =>
    match s.writeByte? a b with
    | some s => s.write (a + 1) bs
    | none => (false, s)

/-- Write the byte at an address as it is, if it can be read. -/
def touch (addr : UInt64) (s : AddressSpace) : AddressSpace :=
  (s.write addr.toNat (s.byte? addr.toNat).toList).2

instance : Kernel AddressSpace where
  pageSize := 4096
  pageSizes := [4096]
  map p bytes access reserved := map p bytes access (.zeros reserved)
  mapLarge := mapLarge
  mapFile := mapFile
  unmap := unmap
  protect := protect
  discard := discard
  preferLarge addr bytes := modify (preferLarge addr bytes)
  grow := grow
  touch addr := modify (touch addr)

end AddressSpace

end HostServices
