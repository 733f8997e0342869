import HostServices.AddressSpace
import HostServices.Alignment
import HostServices.Probe
import HostServices.Memory

/-!
# Memory services over a kernel

Reserved ranges are pages without access, committed ones fresh pages of zeros in their place.
Ranges on large pages are reserved first, at an aligned address inside a larger range if need be,
and given back when the kernel has no such pages.
-/

namespace HostServices

namespace PosixHost

variable {κ : Type} [Kernel κ]

/-- Run a call of the kernel. -/
def call {α : Type} (c : StateM κ α) : Op κ α :=
  Op.ofState c

/-- Reserve bytes somewhere. -/
def reserve (bytes : UInt64) : StateM κ (HostResult UInt64) :=
  Kernel.map .anywhere bytes .nothing true

/-- Reserve bytes at an address. What a kernel that takes the address for a hint has mapped elsewhere
is given back. -/
def reserveAt (addr bytes : UInt64) : StateM κ (HostResult UInt64) := do
  match ← Kernel.map (.fixedIfFree addr) bytes .nothing true with
  | .error e => return .error e
  | .ok got =>
    if got = addr then return .ok got
    match ← Kernel.unmap got bytes with
    | .error e => return .error e
    | .ok () => return .error (.code .alreadyMapped)

/-- Unmap what is there to unmap. -/
def trim (addr bytes : UInt64) : StateM κ (HostResult Unit) :=
  if bytes = 0 then pure (.ok ()) else Kernel.unmap addr bytes

/-- Cut `[raw, raw + extra)` down to `bytes` bytes at the first multiple of `alignment`. -/
def trimTo (raw extra bytes alignment : UInt64) : Op κ (HostResult UInt64) := do
  let aligned ← Op.check (Alignment.up raw alignment)
  match ← call (trim raw (Word.subSat aligned raw)) with
  | .error e => return .error e
  | .ok () =>
    let stop ← Op.add raw extra
    let keep ← Op.add aligned bytes
    match ← call (trim keep (← Op.check (Checked.sub stop keep))) with
    | .error e => return .error e
    | .ok () => return .ok aligned

/-- Reserve bytes at a multiple of `alignment`. -/
def reserveAligned (bytes alignment : UInt64) : Op κ (HostResult UInt64) := do
  match Word.add? bytes alignment with
  | none => return .error (.code .invalid)
  | some extra =>
    match ← call (reserve extra) with
    | .error e => return .error e
    | .ok raw => trimTo raw extra bytes alignment

/-- Reserve bytes for large pages. -/
def reserveBase (bytes alignment : UInt64) : Option UInt64 → Op κ (HostResult UInt64)
  | some addr => do
    if ← Op.check (Alignment.test addr alignment) then call (reserveAt addr bytes)
    else return .error (.code .invalid)
  | none => reserveAligned bytes alignment

/-- Reserve bytes backed by pages of a size. -/
def reserveSpecial (bytes alignment page : UInt64) (addr : Option UInt64) (executable : Bool) :
    Op κ (HostResult UInt64) := do
  if !Word.isPowerOfTwo page || page ≤ Kernel.pageSize κ || !Word.isAligned bytes page then
    return .error (.code .invalid)
  match ← reserveBase bytes (Word.max alignment page) addr with
  | .error e => return .error e
  | .ok base =>
    match ← call (Kernel.mapLarge base bytes page (.readWrite executable)) with
    | .ok p => return .ok p
    | .error e =>
      let _ ← call (Kernel.unmap base bytes)
      return .error e

/-- Map a file. Offsets have a sign for the kernel, so large words are none. -/
def mapFile (p : Placement) (bytes : UInt64) (access : Access) (descriptor : Int) (offset : UInt64)
    (shared : Bool) : StateM κ (HostResult UInt64) :=
  if 1 <<< 63 ≤ offset.toNat then pure (.error (.code .invalid))
  else Kernel.mapFile p bytes access descriptor offset shared

/-- Map shared memory backed by the file. -/
def mapToFile (addr : Option UInt64) (bytes : UInt64) (descriptor : Int) :
    StateM κ (HostResult UInt64) := do
  if 1 <<< 63 ≤ bytes.toNat then return .error (.code .invalid)
  match ← Kernel.grow descriptor bytes with
  | .error e => return .error e
  | .ok () =>
    mapFile (addr.elim .anywhere .fixed) bytes (.readWrite false) descriptor 0 true

/-- Tell that the contents of a range may go. -/
def freeMemory (addr bytes : UInt64) : Op κ Unit := do
  if let .error e ← call (Kernel.discard addr bytes) then
    Op.report .debug .vm "madvise(MADV_DONTNEED) failed"
      [("addr", .shown (Hex.word addr)), ("size", .word bytes), ("error", .shown e.display)]

/-- Every kernel is a memory host. -/
instance memoryHost : MemoryHost κ where
  pageSize _ := Kernel.pageSize κ
  pageSizes _ := Kernel.pageSizes κ
  reserve bytes _ := call (reserve bytes)
  reserveAt addr bytes _ := call (reserveAt addr bytes)
  commit addr bytes executable :=
    call ((·.map fun _ => ()) <$> Kernel.map (.fixed addr) bytes (.readWrite executable) false)
  uncommit addr bytes _ :=
    call ((·.map fun _ => ()) <$> Kernel.map (.fixed addr) bytes .nothing true)
  release addr bytes := call (Kernel.unmap addr bytes)
  reserveSpecial := reserveSpecial
  releaseSpecial addr bytes := call (Kernel.unmap addr bytes)
  mapToFile addr bytes descriptor := call (mapToFile addr bytes descriptor)
  mapFile view addr bytes :=
    call (mapFile (addr.elim .anywhere .fixed) bytes ⟨true, !view.readOnly, view.executable⟩
      view.descriptor view.offset false)
  unmap addr bytes := call (Kernel.unmap addr bytes)
  freeMemory addr bytes _ := freeMemory addr bytes
  realign addr bytes hint :=
    if Kernel.pageSize κ < hint then call (Kernel.preferLarge addr bytes) else pure ()
  guardPages addr bytes := call (Kernel.protect addr bytes)
  touchSize _ _ page := pure page
  touch addr := call (Kernel.touch addr)

/-- The reads of a process in its own address space. -/
def probe (s : AddressSpace) : Probe := fun addr width =>
  ((List.range width.bytes).mapM fun i => s.byte? (addr.toNat + i)).map fun bs =>
    UInt64.ofNat (Memory.ofLittleEndian bs)

end PosixHost

end HostServices
