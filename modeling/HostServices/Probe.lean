import HostServices.Checked

/-!
# Probing memory

Reads of memory that may not be there. A probe answers a read with a value or with nothing. The
questions about an address are asked with reads that put a marker in the place of a fault; a second
read with another marker tells a fault from memory that holds the marker.
-/

namespace HostServices

/-- The width of a read. -/
inductive FetchWidth
  | byte
  | half
  | word
  | double
  deriving DecidableEq, Repr

namespace FetchWidth

/-- The number of bytes. -/
def bytes : FetchWidth → Nat
  | byte => 1
  | half => 2
  | word => 4
  | double => 8

/-- The width with a number of bytes. -/
def ofBytes? : Nat → Option FetchWidth
  | 1 => some byte
  | 2 => some half
  | 4 => some word
  | 8 => some double
  | _ => none

/-- The bits of a value of this width. -/
def mask : FetchWidth → UInt64
  | byte => 0xff
  | half => 0xffff
  | word => 0xffffffff
  | double => 0xffffffffffffffff

/-- The number of bytes as a word. -/
def size (w : FetchWidth) : UInt64 :=
  UInt64.ofNat w.bytes

theorem size_pos (w : FetchWidth) : 0 < w.size.toNat := by
  cases w <;> decide

end FetchWidth

/-- A read of an address: the value there, or nothing. -/
abbrev Probe : Type :=
  UInt64 → FetchWidth → Option UInt64

namespace Probe

/-- Read four bytes, with a marker for a fault. -/
def fetchWord (p : Probe) (addr : UInt64) (marker : UInt32) : UInt32 :=
  ((p addr .word).map UInt64.toUInt32).getD marker

/-- Read eight bytes, with a marker for a fault. -/
def fetchDouble (p : Probe) (addr marker : UInt64) : UInt64 :=
  (p addr .double).getD marker

/-- The four bytes around an address can be read. -/
def isReadable (p : Probe) (addr : UInt64) : Bool :=
  let start := Word.alignDown addr 4
  p.fetchWord start 0xcafebabe != 0xcafebabe || p.fetchWord start 0xdeadbeef != 0xdeadbeef

/-- The eight bytes at an address, if they can be read. -/
def readSafely (p : Probe) (addr : UInt64) : Option UInt64 :=
  let marker : UInt64 := 0x1717
  let first := p.fetchDouble addr marker
  if first ≠ marker then some first
  else
    let second := p.fetchDouble addr (~~~marker)
    if second ≠ ~~~marker then some second else none

/-- An address is no place for a pointer. -/
def isBad (p : Probe) (addr : UInt64) : Bool :=
  addr % 8 != 0 || !p.isReadable addr

/-- Every address from `addr` in steps of `step` below `stop` is readable. -/
def everyStep (p : Probe) (step stop addr : UInt64) (positive : 0 < step.toNat) : Bool :=
  if addr < stop then
    p.isReadable addr &&
      if addr.toNat + step.toNat < UInt64.size then everyStep p step stop (addr + step) positive
      else true
  else true
termination_by stop.toNat - addr.toNat
decreasing_by
  have hlt : addr.toNat < stop.toNat := UInt64.lt_iff_toNat_lt.1 ‹_›
  have hadd : (addr + step).toNat = addr.toNat + step.toNat := by
    rw [UInt64.toNat_add]
    exact Nat.mod_eq_of_lt ‹_›
  omega

/-- One address in each page of `[start, stop)` is readable. There is nothing readable in an empty
range. -/
def isReadableRange (p : Probe) (start stop page : UInt64) : Except Fault Bool :=
  if stop ≤ start then .ok false
  else if Word.isPowerOfTwo page then
    .ok (if h : 0 < page.toNat then p.everyStep page stop (Word.alignDown start page) h else true)
  else .error .alignmentNotPowerOfTwo

end Probe

end HostServices
