import HostServices.Errno
import HostServices.Text.Hex

/-!
# Memory errors

What the virtual memory manager, the malloc limits and the configuration report. Heap operations
answer a failed request with no block instead.
-/

namespace HostServices

/-- Why a memory request was refused. -/
inductive MemoryError
  | reserve (bytes : UInt64) (errno : Errno)
  | commit (addr bytes : UInt64) (errno : Errno)
  | uncommit (addr bytes : UInt64) (errno : Errno)
  | release (addr bytes : UInt64) (errno : Errno)
  | map (bytes : UInt64) (errno : Errno)
  | unmap (addr bytes : UInt64) (errno : Errno)
  /-- A null address or an empty range where a range is needed. -/
  | invalidRange (addr bytes : UInt64)
  /-- A malloc ceiling would be crossed; `ceiling` is a category's short name or `total`. -/
  | limitExceeded (ceiling : String) (requested used limit : UInt64)
  /-- The end of a range is not a word. -/
  | sizeOverflow (operation : String)
  | invalidConfig (reason : String)
  deriving DecidableEq, Repr

namespace MemoryError

/-- The range as messages show it. -/
def rangeText (addr bytes : UInt64) : String :=
  s!"[{Hex.word addr}, +{bytes.toNat})"

/-- The text of an error. -/
def message : MemoryError → String
  | reserve bytes e => s!"Reserving {bytes.toNat} bytes failed: {e.display}"
  | commit addr bytes e => s!"Committing {rangeText addr bytes} failed: {e.display}"
  | uncommit addr bytes e => s!"Uncommitting {rangeText addr bytes} failed: {e.display}"
  | release addr bytes e => s!"Releasing {rangeText addr bytes} failed: {e.display}"
  | map bytes e => s!"Mapping {bytes.toNat} bytes failed: {e.display}"
  | unmap addr bytes e => s!"Unmapping {rangeText addr bytes} failed: {e.display}"
  | invalidRange addr bytes => s!"Invalid range {rangeText addr bytes}"
  | limitExceeded ceiling requested used limit =>
    s!"Malloc limit exceeded for {ceiling}: {requested.toNat} bytes requested, " ++
      s!"{used.toNat} used, limit {limit.toNat}"
  | sizeOverflow operation => s!"Size overflow during operation: {operation}"
  | invalidConfig reason => s!"Invalid configuration: {reason}"

/-- The code that sorts errors. -/
def code : MemoryError → String
  | reserve .. => "MEM:VM:RESERVE"
  | commit .. => "MEM:VM:COMMIT"
  | uncommit .. => "MEM:VM:UNCOMMIT"
  | release .. => "MEM:VM:RELEASE"
  | map .. => "MEM:VM:MAP"
  | unmap .. => "MEM:VM:UNMAP"
  | invalidRange .. => "MEM:VM:RANGE"
  | limitExceeded .. => "MEM:MALLOC:LIMIT"
  | sizeOverflow .. => "MEM:MALLOC:OVERFLOW"
  | invalidConfig .. => "MEM:CONFIG:INVALID"

/-- A smaller or later request might succeed. -/
def isRetryable : MemoryError → Bool
  | reserve .. | commit .. | map .. | limitExceeded .. => true
  | _ => false

/-- The host's code, when a host call failed. -/
def errno? : MemoryError → Option Errno
  | reserve _ e | commit _ _ e | uncommit _ _ e | release _ _ e | map _ e | unmap _ _ e => some e
  | _ => none

end MemoryError

end HostServices
