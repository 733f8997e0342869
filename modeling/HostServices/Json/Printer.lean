import HostServices.Json.Basic
import HostServices.Text.Hex

/-!
# From documents to text

The compact form: no blanks, and in strings only quotes, backslashes and control characters are
escaped.
-/

namespace HostServices.Json

/-- A character inside a string. -/
def escaped (c : Char) : List Char :=
  match c with
  | '"' => ['\\', '"']
  | '\\' => ['\\', '\\']
  | '\n' => ['\\', 'n']
  | '\r' => ['\\', 'r']
  | '\t' => ['\\', 't']
  | '\x08' => ['\\', 'b']
  | '\x0c' => ['\\', 'f']
  | c => if c.toNat < 0x20 then '\\' :: 'u' :: Hex.padded 4 c.toNat else [c]

/-- A string between quotes. -/
def quote (s : String) : String :=
  "\"" ++ String.ofList (s.toList.flatMap escaped) ++ "\""

mutual

/-- The text of a document. A break has no text. -/
def render : Json → String
  | null => "null"
  | bool b => if b then "true" else "false"
  | number n => (if n.negative then "-" else "") ++ toString n.digits
  | string t => quote t.text
  | array items _ => "[" ++ ",".intercalate (renderItems items) ++ "]"
  | object members _ => "\x7b" ++ ",".intercalate (renderMembers members) ++ "\x7d"
  | broken _ => ""

/-- The texts of items. -/
def renderItems : List Json → List String
  | [] => []
  | j :: js => render j :: renderItems js

/-- The texts of members. -/
def renderMembers : List (Token × Json) → List String
  | [] => []
  | (k, j) :: js => (quote k.text ++ ":" ++ render j) :: renderMembers js

end

end HostServices.Json
