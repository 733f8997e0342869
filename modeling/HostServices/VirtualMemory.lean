import HostServices.MemoryConfig
import HostServices.MemoryHost
import HostServices.OutOfMemory
import HostServices.PageSizeSelector
import HostServices.Tracker.Report

/-!
# The virtual memory manager

A layer over a memory host that checks ranges, reports failures, and tells the tracker what the
host did. The tracker hears of a call only after the host has answered it.
-/

namespace HostServices

/-- A host with the regions made through it. -/
structure VirtualMemory (π : Type) where
  host : π
  tracker : Tracker
  selector : PageSizeSelector
  tracking : Bool

namespace VirtualMemory

variable {π α : Type} [MemoryHost π]

/-- A manager without regions. -/
def create (host : π) (config : MemoryConfig) : Op Unit (VirtualMemory π) := do
  let selector ← PageSizeSelector.create (MemoryHost.pageSize host) (MemoryHost.pageSizes host)
    config.largePageSize config.useLargePages
  return ⟨host, {}, selector, config.tracking.enabled⟩

/-- Run an operation of the host. -/
def onHost (op : Op π α) : Op (VirtualMemory π) α :=
  Op.zoom (·.host) (fun v h => { v with host := h }) op

/-- Run an operation of the tracker, if regions are tracked. -/
def record (op : Op Tracker α) : Op (VirtualMemory π) Unit := do
  if (← get).tracking then
    let _ ← Op.zoom (·.tracker) (fun v t => { v with tracker := t }) op

/-- A report about address space. -/
def note (severity : Severity) (message : String) : Op (VirtualMemory π) Unit :=
  Op.report severity .vm message

/-- What is wrong with a range: it has no address or no bytes, or its end is not a word. -/
def rangeProblem (addr bytes : UInt64) : Option MemoryError :=
  if addr = 0 ∨ bytes = 0 then some (.invalidRange addr bytes)
  else if (Word.add? addr bytes).isNone then some (.sizeOverflow "virtual memory range")
  else none

/-- Refuse a bad range, else go on. -/
def onRange (addr bytes : UInt64) (op : Op (VirtualMemory π) (Except MemoryError α)) :
    Op (VirtualMemory π) (Except MemoryError α) :=
  match rangeProblem addr bytes with
  | some e => pure (.error e)
  | none => op

/-- Refuse a request for no bytes, else go on. -/
def onSize (addr : Option UInt64) (bytes : UInt64)
    (op : Op (VirtualMemory π) (Except MemoryError α)) :
    Op (VirtualMemory π) (Except MemoryError α) :=
  if bytes = 0 then pure (.error (.invalidRange (addr.getD 0) bytes)) else op

/-! ## Reservations -/

/-- Reserve bytes anywhere. -/
def reserve (bytes : UInt64) (executable : Bool) (c : Category) (site : CallSite) :
    Op (VirtualMemory π) (Except MemoryError UInt64) :=
  onSize none bytes do
    match ← onHost (MemoryHost.reserve bytes executable) with
    | .ok addr =>
      record (Tracker.reserve addr bytes c site)
      note .trace s!"Reserved [{Hex.word addr}, +{bytes.toNat}) for {c.displayName}"
      return .ok addr
    | .error e =>
      note .debug s!"Reserving {bytes.toNat} bytes failed, errno {e.errno.display}"
      return .error (.reserve bytes e.errno)

/-- Reserve bytes at an address, unless something is there. The region has no category yet. -/
def reserveAt (addr bytes : UInt64) (executable : Bool) (site : CallSite) :
    Op (VirtualMemory π) (Except MemoryError UInt64) :=
  onRange addr bytes do
    match ← onHost (MemoryHost.reserveAt addr bytes executable) with
    | .ok result =>
      record (Tracker.reserve result bytes .uncharged site)
      return .ok result
    | .error e =>
      note .debug <| s!"Attempt to reserve memory at {Hex.word addr} for {bytes.toNat} bytes " ++
        s!"failed, errno {e.errno.display}"
      return .error (.reserve bytes e.errno)

/-- Change the category of the region that holds `addr`. -/
def setCategory (addr : UInt64) (c : Category) : Op (VirtualMemory π) Unit :=
  record (modify (Tracker.setCategory addr c))

/-- Report a failure to give something up, and answer it. -/
def refused (operation : String) (addr bytes : UInt64) (error : MemoryError) :
    Op (VirtualMemory π) (Except MemoryError α) := do
  note .info s!"os::{operation} failed ({Hex.word addr}, {bytes.toNat})"
  return .error error

/-- Give a range up through a host call, and record that it is gone. -/
def giveUp (operation : String) (addr bytes : UInt64) (call : Op π (HostResult Unit))
    (error : Errno → MemoryError) : Op (VirtualMemory π) (Except MemoryError Unit) :=
  onRange addr bytes do
    match ← onHost call with
    | .ok () =>
      record (Tracker.release addr bytes)
      return .ok ()
    | .error e => refused operation addr bytes (error e.errno)

/-- Give a reservation back to the host. -/
def release (addr bytes : UInt64) : Op (VirtualMemory π) (Except MemoryError Unit) :=
  giveUp "release_memory" addr bytes (MemoryHost.release addr bytes) (.release addr bytes)

/-- Reserve and commit a region backed by pages of a size. The region has no category yet. -/
def reserveSpecial (bytes alignment page : UInt64) (addr : Option UInt64) (executable : Bool)
    (site : CallSite) : Op (VirtualMemory π) (Except MemoryError UInt64) :=
  onSize addr bytes do
    match ← onHost (MemoryHost.reserveSpecial bytes alignment page addr executable) with
    | .ok result =>
      record (Tracker.reserveCommitted result bytes .uncharged site)
      PageSizeSelector.traceRequestedSize "Reserve special" bytes page alignment result bytes
      return .ok result
    | .error e =>
      note .debug <| s!"Reserving {bytes.toNat} bytes of {page.toNat} byte pages failed, " ++
        s!"errno {e.errno.display}"
      return .error (.reserve bytes e.errno)

/-- Give a region of `reserveSpecial` back. -/
def releaseSpecial (addr bytes : UInt64) : Op (VirtualMemory π) (Except MemoryError Unit) :=
  giveUp "release_memory_special" addr bytes (MemoryHost.releaseSpecial addr bytes)
    (.release addr bytes)

/-! ## Commits -/

/-- Commit a range through a host call. -/
def commitBy (addr bytes : UInt64) (executable : Bool) (call : Op π (HostResult Unit)) :
    Op (VirtualMemory π) (Except MemoryError Unit) :=
  onRange addr bytes do
    match ← onHost call with
    | .ok () =>
      record (Tracker.commit addr bytes)
      return .ok ()
    | .error e =>
      let mode := if executable then 1 else 0
      note .warn <| s!"os::commit_memory({Hex.word addr}, {bytes.toNat}, {mode}) failed; " ++
        s!"error='{e.errno.description}' (errno={e.errno.code})"
      return .error (.commit addr bytes e.errno)

/-- Back a range with memory. -/
def commit (addr bytes : UInt64) (executable : Bool) :
    Op (VirtualMemory π) (Except MemoryError Unit) :=
  commitBy addr bytes executable (MemoryHost.commit addr bytes executable)

/-- `commit`, with a preferred page size. -/
def commitAligned (addr bytes hint : UInt64) (executable : Bool) :
    Op (VirtualMemory π) (Except MemoryError Unit) :=
  commitBy addr bytes executable (MemoryHost.commitAligned addr bytes hint executable)

/-- `commit`, where a failure ends the process. -/
def commitOrExit (addr bytes : UInt64) (executable : Bool) (context : String) :
    Op (VirtualMemory π) Unit := do
  match ← commit addr bytes executable with
  | .ok () => return
  | .error _ => OutOfMemory.exit bytes context

/-- Drop the backing of a range. -/
def uncommit (addr bytes : UInt64) (executable : Bool) :
    Op (VirtualMemory π) (Except MemoryError Unit) :=
  onRange addr bytes do
    match ← onHost (MemoryHost.uncommit addr bytes executable) with
    | .ok () =>
      record (Tracker.uncommit addr bytes)
      return .ok ()
    | .error e => refused "uncommit_memory" addr bytes (.uncommit addr bytes e.errno)

/-! ## Mappings -/

/-- Map bytes through a host call. -/
def mapBy (bytes : UInt64) (c : Category) (site : CallSite) (call : Op π (HostResult UInt64)) :
    Op (VirtualMemory π) (Except MemoryError UInt64) := do
  match ← onHost call with
  | .ok addr =>
    record (Tracker.reserveCommitted addr bytes c site)
    return .ok addr
  | .error e =>
    note .debug s!"Mapping {bytes.toNat} bytes failed, errno {e.errno.display}"
    return .error (.map bytes e.errno)

/-- Map shared memory backed by a file, anywhere. -/
def mapToFile (bytes : UInt64) (descriptor : Int) (c : Category) (site : CallSite) :
    Op (VirtualMemory π) (Except MemoryError UInt64) :=
  onSize none bytes (mapBy bytes c site (MemoryHost.mapToFile none bytes descriptor))

/-- Map shared memory backed by a file, in place of what is at an address. -/
def mapToFileAt (addr bytes : UInt64) (descriptor : Int) (c : Category) (site : CallSite) :
    Op (VirtualMemory π) (Except MemoryError UInt64) :=
  onRange addr bytes (mapBy bytes c site (MemoryHost.mapToFile (some addr) bytes descriptor))

/-- Map a private view of a file. -/
def map (view : FileView) (addr : Option UInt64) (bytes : UInt64) (c : Category)
    (site : CallSite) : Op (VirtualMemory π) (Except MemoryError UInt64) :=
  onSize addr bytes (mapBy bytes c site (MemoryHost.mapFile view addr bytes))

/-- Put another view into the place of a mapping, which stays the same region. -/
def remap (view : FileView) (addr bytes : UInt64) :
    Op (VirtualMemory π) (Except MemoryError UInt64) :=
  onRange addr bytes do
    let result ← onHost (MemoryHost.remapFile view addr bytes)
    return result.mapError fun e => .map bytes e.errno

/-- Remove a mapping. -/
def unmap (addr bytes : UInt64) : Op (VirtualMemory π) (Except MemoryError Unit) :=
  giveUp "unmap_memory" addr bytes (MemoryHost.unmap addr bytes) (.unmap addr bytes)

/-! ## Advice and guards -/

/-- Drop the contents of a range and keep it committed. -/
def freeMemory (addr bytes hint : UInt64) : Op (VirtualMemory π) (Except MemoryError Unit) :=
  onRange addr bytes do
    onHost (MemoryHost.freeMemory addr bytes hint)
    return .ok ()

/-- Say which page size is preferred for a range. -/
def realign (addr bytes hint : UInt64) : Op (VirtualMemory π) (Except MemoryError Unit) :=
  onRange addr bytes do
    onHost (MemoryHost.realign addr bytes hint)
    return .ok ()

/-- Make a range inaccessible. -/
def guardPages (addr bytes : UInt64) : Op (VirtualMemory π) (Except MemoryError Unit) :=
  onRange addr bytes do
    let result ← onHost (MemoryHost.guardPages addr bytes)
    return result.mapError fun e => .commit addr bytes e.errno

/-! ## Touching pages -/

/-- The addresses from `current` in steps of `step` until one is not below `last`, and whether all
of them are words. -/
def touches (last step current : UInt64) (positive : step ≠ 0) : List UInt64 × Bool :=
  if current < last then
    if current.toNat + step.toNat < UInt64.size then
      let (rest, fits) := touches last step (current + step) positive
      (current :: rest, fits)
    else ([current], false)
  else ([current], true)
termination_by last.toNat - current.toNat
decreasing_by
  have hs : step.toNat ≠ 0 := by simpa [← UInt64.toNat_inj] using positive
  have hlt : current.toNat < last.toNat := UInt64.lt_iff_toNat_lt.1 ‹_›
  have hadd : (current + step).toNat = current.toNat + step.toNat := by
    rw [UInt64.toNat_add]
    exact Nat.mod_eq_of_lt ‹_›
  omega

/-- Touch each of the pages of a range that is not empty, `step` bytes apart. -/
def touchEvery (first stop step : UInt64) (positive : step ≠ 0) : Op (VirtualMemory π) Unit := do
  let last ← Op.check (Alignment.down (stop - 1) step)
  let (addresses, fits) := touches last step first positive
  addresses.forM fun a => onHost (MemoryHost.touch a)
  if !fits then
    Op.stop (.fault .addOverflow)

/-- Make sure that every page of `[start, stop)` is backed, by touching one word of it. -/
def pretouch (start stop page : UInt64) : Op (VirtualMemory π) Unit := do
  if stop < start then
    Op.stop (.fault (.invertedRange start stop))
  if !Word.isPowerOfTwo page then
    Op.stop (.fault (.pageSizeMisaligned page))
  if page < 4 then
    Op.stop (.fault (.pageSizeTooSmall page))
  if start = stop then
    return
  let first := Word.alignDown start page
  let step ← onHost (MemoryHost.touchSize first (Word.alignDown (stop - 1) page) page)
  if h : step = 0 then
    return
  else
    touchEvery first stop step h

end VirtualMemory

end HostServices
