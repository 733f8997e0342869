import HostServices.Probe
import HostServices.Text.Hex

/-!
# Hex dumps

Lines of cells, with the address of the first cell in front. Cells that cannot be read show two
question marks for each byte.
-/

namespace HostServices

/-- What to dump: the cells of `[start, stop)` in units, under the addresses from `logical`. -/
structure HexDump where
  start : UInt64
  stop : UInt64
  unit : FetchWidth
  bytesPerLine : UInt64
  logical : UInt64
  deriving DecidableEq, Repr

namespace HexDump

/-- The text in front of a line. -/
def lead (logical : UInt64) : String :=
  s!"{Hex.address logical}:   "

/-- The text of the cell at an address. -/
def cell (probe : Probe) (unit : FetchWidth) (addr : UInt64) : String :=
  match probe addr unit with
  | some value => String.ofList (Hex.padded (2 * unit.bytes) (value &&& unit.mask).toNat)
  | none => String.ofList (List.replicate (2 * unit.bytes) '?')

/-- The number of cells in a full line. -/
def columns (d : HexDump) : UInt64 :=
  Word.alignUp (Word.max d.bytesPerLine 1) 8 / d.unit.size

/-- The text that `written` becomes: the cell at `addr` and those behind it are added, where `column`
cells are in its line already. -/
def cells (d : HexDump) (probe : Probe) (written : String) (addr logical column : UInt64) :
    Except Fault String :=
  if addr < d.stop then do
    let written := written ++ cell probe d.unit addr
    let column ← Checked.add column 1
    if addr.toNat + d.unit.size.toNat < d.stop.toNat then
      let next := addr + d.unit.size
      let logical := logical + d.unit.size
      if column < d.columns then cells d probe (written ++ " ") next logical column
      else cells d probe (written ++ "\n" ++ lead logical) next logical 0
    else return written ++ " "
  else return written
termination_by d.stop.toNat - addr.toNat
decreasing_by
  all_goals
    have hpos := d.unit.size_pos
    have hadd : (addr + d.unit.size).toNat = addr.toNat + d.unit.size.toNat := by
      rw [UInt64.toNat_add]
      exact Nat.mod_eq_of_lt (Nat.lt_trans ‹_› d.stop.toNat_lt)
    omega

/-- The dump. -/
def render (d : HexDump) (probe : Probe) : Except Fault String := do
  let start := Word.alignDown d.start d.unit.size
  let logical := Word.alignDown d.logical d.unit.size
  return (← d.cells probe (lead logical) start logical 0) ++ "\n"

end HexDump

end HostServices
