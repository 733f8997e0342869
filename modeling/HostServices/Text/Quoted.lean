import HostServices.Text.Hex
import HostServices.Text.Extender
import HostServices.Text.Graphic

/-!
# Text with its controls escaped

Control characters would act on a terminal, so a text for people shows their escapes.
-/

namespace HostServices.Text

/-- The escape of a character by its code point. -/
def codeEscape (c : Char) : List Char :=
  ['\\', 'u', '\x7b'] ++ Hex.padded 1 c.toNat ++ ['\x7d']

/-- A character inside quotes. One that leaves no mark shows its code point. -/
def quotedChar (c : Char) : List Char :=
  match c with
  | '"' => ['\\', '"']
  | '\\' => ['\\', '\\']
  | '\n' => ['\\', 'n']
  | '\r' => ['\\', 'r']
  | '\t' => ['\\', 't']
  | '\x00' => ['\\', '0']
  | c => if isExtender c || !isGraphic c then codeEscape c else [c]

/-- A text between quotes. -/
def quoted (s : String) : String :=
  "\"" ++ String.ofList (s.toList.flatMap quotedChar) ++ "\""

/-- A character that no terminal takes for a control, apart from blanks. -/
def tamedChar (c : Char) : List Char :=
  if c.toNat ∈ [0x07, 0x08, 0x0c, 0x1b, 0x7f] then ['\\', 'x'] ++ Hex.padded 2 c.toNat
  else if 0x80 ≤ c.toNat && c.toNat < 0xa0 then codeEscape c
  else [c]

/-- A text that moves no cursor. -/
def tamed (s : String) : String :=
  String.ofList (s.toList.flatMap tamedChar)

end HostServices.Text
