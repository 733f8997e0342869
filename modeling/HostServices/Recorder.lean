import HostServices.MemoryHost
import HostServices.Thread.Priority

/-!
# A host that only records

Every call is written down and answered as if it had worked, unless it is set to fail. Addresses
are handed out in order, with an unused page behind each range.
-/

namespace HostServices

/-- The settings of a recording host, and what it was asked. -/
structure Recorder where
  pageSize : UInt64 := 4096
  pageSizes : List UInt64 := [4096, 2097152, 1073741824]
  /-- The next address to hand out. -/
  next : UInt64 := 0x40000000
  /-- The calls that fail, by name. -/
  failing : List (String × HostError) := []
  /-- The number of the calling thread. -/
  thread : Int := 100
  /-- The priority last set. -/
  priority : Int := 0
  /-- The distance for touching pages, if it is not the page size. -/
  touchSize : Option UInt64 := none
  /-- The calls so far, the latest first. -/
  calls : List String := []
  /-- The addresses touched so far, the latest first. -/
  touched : List UInt64 := []

namespace Recorder

/-- Write down a call. -/
def log (name : String) (args : List String) : Op Recorder Unit :=
  modify fun r => { r with calls := " ".intercalate (name :: args) :: r.calls }

/-- Write down a call and answer it. -/
def call {α : Type} (name : String) (args : List String) (answer : Op Recorder α) :
    Op Recorder (HostResult α) := do
  log name args
  match (← get).failing.lookup name with
  | some e => return .error e
  | none => return .ok (← answer)

/-- The address of a new range: the given one, else the next unused one. -/
def place (addr : Option UInt64) (bytes : UInt64) : Op Recorder UInt64 :=
  match addr with
  | some a => pure a
  | none => modifyGet fun r =>
    let pages := (bytes.toNat + r.pageSize.toNat - 1) / r.pageSize.toNat + 1
    (r.next, { r with next := r.next + UInt64.ofNat (pages * r.pageSize.toNat) })

/-- A number in a call. -/
def number (a : UInt64) : String :=
  toString a.toNat

/-- An address in a call, if there is one. -/
def address? (a : Option UInt64) : String :=
  a.elim "-" Hex.word

instance : MemoryHost Recorder where
  pageSize r := r.pageSize
  pageSizes r := r.pageSizes
  reserve bytes executable :=
    call "reserve" [number bytes, toString executable] (place none bytes)
  reserveAt addr bytes executable :=
    call "reserve_at" [Hex.word addr, number bytes, toString executable] (pure addr)
  commit addr bytes executable :=
    call "commit" [Hex.word addr, number bytes, toString executable] (pure ())
  uncommit addr bytes executable :=
    call "uncommit" [Hex.word addr, number bytes, toString executable] (pure ())
  release addr bytes := call "release" [Hex.word addr, number bytes] (pure ())
  reserveSpecial bytes alignment page addr executable :=
    call "reserve_special"
      [number bytes, number alignment, number page, address? addr, toString executable]
      (place addr bytes)
  releaseSpecial addr bytes := call "release_special" [Hex.word addr, number bytes] (pure ())
  mapToFile addr bytes descriptor :=
    call "map_to_file" [address? addr, number bytes, s!"fd={descriptor}"] (place addr bytes)
  mapFile view addr bytes :=
    call "map_file"
      [s!"fd={view.descriptor}", number view.offset, address? addr, number bytes,
        toString view.readOnly, toString view.executable]
      (place addr bytes)
  unmap addr bytes := call "unmap" [Hex.word addr, number bytes] (pure ())
  freeMemory addr bytes hint := log "free_memory" [Hex.word addr, number bytes, number hint]
  realign addr bytes hint := log "realign" [Hex.word addr, number bytes, number hint]
  guardPages addr bytes := call "guard" [Hex.word addr, number bytes] (pure ())
  touchSize first last page := do
    log "pretouch_page_size" [Hex.word first, Hex.word last, number page]
    return (← get).touchSize.getD page
  touch addr := modify fun r => { r with touched := addr :: r.touched }

instance : ThreadHost Recorder where
  setPriority thread priority :=
    call "set_priority" [toString thread, toString priority]
      (modify fun r => { r with priority := priority })
  getPriority thread := call "get_priority" [toString thread] (return (← get).priority)
  current r := r.thread

end Recorder

end HostServices
