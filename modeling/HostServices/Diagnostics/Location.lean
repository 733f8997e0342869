import HostServices.Probe
import HostServices.Text.Hex

/-!
# Locations

What an address is, as far as anyone knows.
-/

namespace HostServices

/-- Something that knows about some addresses. -/
abbrev LocationFinder : Type :=
  UInt64 → Option String

namespace Location

/-- The text of a byte, or two question marks. -/
def byteText (probe : Probe) (addr : UInt64) : String :=
  match probe addr .byte with
  | some b => " " ++ String.ofList (Hex.padded 2 b.toNat)
  | none => " ??"

/-- The bytes of `[addr, stop)`. -/
def bytesText (probe : Probe) (addr stop : UInt64) : String :=
  String.join ((List.range (stop.toNat - addr.toNat)).map fun i =>
    byteText probe (addr + UInt64.ofNat i))

/-- The word at an aligned address, if it can be read. -/
def wordText (probe : Probe) (addr : UInt64) : String :=
  if Word.isAligned addr 8 then
    (probe.readSafely addr).elim "" fun value => s!" {Hex.address value} |"
  else ""

/-- Classify an address: the first finder that knows it has the word. Else it is memory that can be
read, shown up to the next word boundary, or an unknown value. -/
def render (probe : Probe) (finders : List LocationFinder) (addr : UInt64) : Except Fault String :=
  if addr = 0 then .ok "0x0 is null\n"
  else
    match finders.findSome? (· addr) with
    | some text => .ok (text ++ "\n")
    | none =>
      if probe.isReadable addr then do
        let next ← Checked.add addr 1
        return s!"{Hex.address addr} points into unknown readable memory:" ++
          wordText probe addr ++ bytesText probe addr (Word.alignUp next 8) ++ "\n"
      else .ok s!"{Hex.address addr} is an unknown value\n"

end Location

end HostServices
