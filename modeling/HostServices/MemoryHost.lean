import HostServices.Errno
import HostServices.Op

/-!
# Memory hosts

The host calls that the virtual memory manager is built on. A call changes the state of the host
and may fail; what it was asked is neither checked nor counted here.
-/

namespace HostServices

/-- The answer of a host call. -/
abbrev HostResult (α : Type) : Type :=
  Except HostError α

/-- The part of a file that a mapping shows, and what may be done with the mapped bytes. -/
structure FileView where
  descriptor : Int
  offset : UInt64
  readOnly : Bool
  executable : Bool
  deriving DecidableEq, Repr

/-- The host calls on address space. -/
class MemoryHost (π : Type) where
  /-- The base page size. -/
  pageSize : π → UInt64
  /-- The granularity of reservations. -/
  granularity : π → UInt64 := pageSize
  /-- The page sizes that can back memory. -/
  pageSizes : π → List UInt64
  /-- Reserve bytes without backing, anywhere. -/
  reserve (bytes : UInt64) (executable : Bool) : Op π (HostResult UInt64)
  /-- Reserve bytes at an address, unless something is there. -/
  reserveAt (addr bytes : UInt64) (executable : Bool) : Op π (HostResult UInt64)
  /-- Back a reserved range with memory. -/
  commit (addr bytes : UInt64) (executable : Bool) : Op π (HostResult Unit)
  /-- Drop the backing of a range and keep it reserved. -/
  uncommit (addr bytes : UInt64) (executable : Bool) : Op π (HostResult Unit)
  /-- Give a reservation back. -/
  release (addr bytes : UInt64) : Op π (HostResult Unit)
  /-- Reserve bytes backed by pages of a size. -/
  reserveSpecial (bytes alignment page : UInt64) (addr : Option UInt64) (executable : Bool) :
    Op π (HostResult UInt64)
  /-- Give such a reservation back. -/
  releaseSpecial (addr bytes : UInt64) : Op π (HostResult Unit)
  /-- Map shared memory backed by a file, which grows as needed. -/
  mapToFile (addr : Option UInt64) (bytes : UInt64) (descriptor : Int) : Op π (HostResult UInt64)
  /-- Map a private view of a file. -/
  mapFile (view : FileView) (addr : Option UInt64) (bytes : UInt64) : Op π (HostResult UInt64)
  /-- Remove a mapping. -/
  unmap (addr bytes : UInt64) : Op π (HostResult Unit)
  /-- Drop the contents of a range and keep it committed. -/
  freeMemory (addr bytes hint : UInt64) : Op π Unit
  /-- Tell the host which page size is preferred for a range. -/
  realign (addr bytes hint : UInt64) : Op π Unit
  /-- Make a range inaccessible. -/
  guardPages (addr bytes : UInt64) : Op π (HostResult Unit)
  /-- The distance at which to touch the pages of a range, zero when there is no need to. -/
  touchSize (first last page : UInt64) : Op π UInt64
  /-- Touch the word at an address without changing it. -/
  touch (addr : UInt64) : Op π Unit
  /-- Back a range with memory and say which page size is preferred. -/
  commitAligned (addr bytes hint : UInt64) (executable : Bool) : Op π (HostResult Unit) := do
    match ← commit addr bytes executable with
    | .ok () =>
      realign addr bytes hint
      return .ok ()
    | .error e => return .error e
  /-- Put another view into the place of a mapping. -/
  remapFile (view : FileView) (addr bytes : UInt64) : Op π (HostResult UInt64) := do
    match ← unmap addr bytes with
    | .ok () => mapFile view (some addr) bytes
    | .error e => return .error e

end HostServices
