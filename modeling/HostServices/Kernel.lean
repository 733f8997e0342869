import HostServices.MemoryHost

/-!
# Kernels

The calls on address space that a process can make. The caller says where a mapping goes, what may be
done with its bytes and where these come from; a call changes the state of the kernel and may fail.
-/

namespace HostServices

/-- What may be done with the bytes of a mapping. -/
structure Access where
  read : Bool
  write : Bool
  execute : Bool
  deriving DecidableEq, Repr

namespace Access

/-- Nothing. -/
def nothing : Access := ⟨false, false, false⟩

/-- Reading and writing, and perhaps execution. -/
def readWrite (executable : Bool) : Access := ⟨true, true, executable⟩

/-- The letters of an access, with dashes for what is not allowed. -/
def letters (a : Access) : String :=
  String.ofList [if a.read then 'r' else '-', if a.write then 'w' else '-',
    if a.execute then 'x' else '-']

end Access

/-- Where a mapping goes. -/
inductive Placement
  | anywhere
  /-- At an address, in place of what is there. -/
  | fixed (addr : UInt64)
  /-- At an address, if nothing is there. -/
  | fixedIfFree (addr : UInt64)

/-- The calls of a process on its address space, and the page sizes of the machine. -/
class Kernel (κ : Type) where
  /-- The base page size. -/
  pageSize : UInt64
  /-- The page sizes that can back memory. -/
  pageSizes : List UInt64
  /-- Map fresh zeros. Reserved bytes take no memory of the machine. -/
  map (p : Placement) (bytes : UInt64) (access : Access) (reserved : Bool) :
    StateM κ (HostResult UInt64)
  /-- Map fresh zeros onto large pages of a size, in place of what is there. -/
  mapLarge (addr bytes size : UInt64) (access : Access) : StateM κ (HostResult UInt64)
  /-- Map a file from an offset on. Changes reach the file if it is shared. -/
  mapFile (p : Placement) (bytes : UInt64) (access : Access) (descriptor : Int) (offset : UInt64)
    (shared : Bool) : StateM κ (HostResult UInt64)
  /-- Remove what lies in a range. -/
  unmap (addr bytes : UInt64) : StateM κ (HostResult Unit)
  /-- Forbid all access to a range. -/
  protect (addr bytes : UInt64) : StateM κ (HostResult Unit)
  /-- The contents of a range may be dropped. -/
  discard (addr bytes : UInt64) : StateM κ (HostResult Unit)
  /-- Large pages are preferred in a range. -/
  preferLarge (addr bytes : UInt64) : StateM κ Unit
  /-- A file has at least some length. -/
  grow (descriptor : Int) (bytes : UInt64) : StateM κ (HostResult Unit)
  /-- The page of an address is used, and keeps what it holds. -/
  touch (addr : UInt64) : StateM κ Unit

end HostServices
