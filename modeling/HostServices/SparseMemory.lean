import HostServices.Memory
import HostServices.Op
import HostServices.Probe

/-!
# Sparse memory

An address space of which only some bytes are there, and the probe that reads it.
-/

namespace HostServices

/-- The bytes that are there. -/
structure SparseMemory where
  byte? : UInt64 → Option UInt8 := fun _ => none

namespace SparseMemory

/-- Some bytes in a row; there are none beyond the last address. -/
def bytes? (m : SparseMemory) (addr : UInt64) : Nat → Option (List UInt8)
  | 0 => some []
  | 1 => (m.byte? addr).map fun b => [b]
  | n + 2 => do
    let b ← m.byte? addr
    let next ← Word.add? addr 1
    return b :: (← m.bytes? next (n + 1))

/-- Reads of the bytes that are there, the low byte first. -/
def probe (m : SparseMemory) : Probe := fun addr width =>
  (m.bytes? addr width.bytes).map fun bs => UInt64.ofNat (Memory.ofLittleEndian bs)

/-- Put bytes at an address. Those that would lie beyond the last address end the operation, after
the ones before it are there. -/
def map (addr : UInt64) (bs : Array UInt8) : Op SparseMemory Unit := do
  let room := UInt64.size - addr.toNat
  modify fun m => ⟨fun a =>
    let i := (a - addr).toNat
    if i < room then (bs[i]?).or (m.byte? a) else m.byte? a⟩
  if room < bs.size then
    Op.stop (.fault .addOverflow)

/-- Put a word at an address. -/
def mapWord (addr word : UInt64) : Op SparseMemory Unit :=
  map addr (Memory.littleEndian 8 word.toNat).toArray

/-- Take bytes away. -/
def unmap (addr len : UInt64) : Op SparseMemory Unit := do
  let stop ← Op.add addr len
  modify fun m => ⟨fun a => if addr ≤ a && a < stop then none else m.byte? a⟩

end SparseMemory

end HostServices
