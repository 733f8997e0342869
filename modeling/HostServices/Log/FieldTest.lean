import HostServices.Pattern.Parser
import HostServices.Text.Split

/-!
# Tests of fields

A test asks for a field by name, and perhaps for its value behind `=`: a truth value, a number, or
a pattern that a text must match. Fields of spans hold texts, so only patterns can tell their values
apart.
-/

namespace HostServices.Log

/-- What a field must hold. -/
inductive ValueTest
  /-- A truth value or a number. No text is equal to one. -/
  | plain (text : List Char)
  /-- The notation of a pattern. -/
  | pattern (text : List Char)
  deriving DecidableEq, Repr

/-- A field with a name, and what it must hold. -/
structure FieldTest where
  name : List Char
  value : Option ValueTest := none
  deriving DecidableEq, Repr

namespace ValueTest

/-- The text behind a sign. -/
def unsigned : List Char → List Char
  | '+' :: cs => cs
  | '-' :: cs => cs
  | cs => cs

/-- Digits with at most one point among them. -/
def isMantissa (cs : List Char) : Bool :=
  let whole := cs.takeWhile Char.isDigit
  match cs.drop whole.length with
  | [] => whole ≠ []
  | '.' :: places => (whole ≠ [] || places ≠ []) && places.all Char.isDigit
  | _ => false

/-- The notation of a number. -/
def isNumber (cs : List Char) : Bool :=
  let cs := unsigned cs
  let mantissa := cs.takeWhile fun c => c != 'e' && c != 'E'
  String.ofList (cs.map Char.toLower) ∈ ["inf", "infinity", "nan"] ||
    isMantissa mantissa &&
      match cs.drop mantissa.length with
      | [] => true
      | _ :: exponent => unsigned exponent ≠ [] && (unsigned exponent).all Char.isDigit

/-- Read what a field must hold. -/
def parse? (cs : List Char) : Option ValueTest :=
  if String.ofList cs ∈ ["true", "false"] ∨ isNumber cs then some (plain cs)
  else (Pattern.parse? cs).map fun _ => pattern cs

/-- A field with a text passes. -/
def accepts (text : List Char) : ValueTest → Bool
  | plain _ => false
  | pattern p => (Pattern.parse? p).any (·.matchesText text)

end ValueTest

namespace FieldTest

/-- Read a test: a name, perhaps with a value behind `=`. What follows another `=` is dropped. -/
def parse? (cs : List Char) : Option FieldTest :=
  match Text.split '=' cs with
  | [] => none
  | [name] => some { name }
  | name :: value :: _ => (ValueTest.parse? value).map fun test => ⟨name, some test⟩

/-- A field with a text passes. -/
def accepts (t : FieldTest) (text : List Char) : Bool :=
  t.value.all (·.accepts text)

end FieldTest

end HostServices.Log
