import HostServices.Rounding

/-!
# JSON documents

A document is kept as far as its text is JSON. Where the text stops being JSON the tree says so
with a `Break`, so that a typed reading of the document can report the first problem it meets, in
document order: a value that does not fit, before a fault in the text behind it.
-/

namespace HostServices

namespace Json

/-- What is wrong with a document. -/
inductive Problem
  /-- The text is not JSON. -/
  | malformed
  /-- The text ends too early. -/
  | truncated
  /-- A value of the wrong kind, an unknown name or a repeated field. -/
  | unfit
  deriving DecidableEq, Repr

/-- Where the text stops being JSON: the problem for one who reads the value, and for one who
passes over it. -/
structure Break where
  read : Problem
  skip : Problem
  deriving DecidableEq, Repr

/-- The same problem for both. -/
def Break.same (p : Problem) : Break :=
  ⟨p, p⟩

/-- A number as it is written: `digits`, without the point, times ten to the `exponent`. -/
structure Literal where
  negative : Bool
  digits : Nat
  exponent : Int
  /-- There is neither a point nor an exponent. -/
  whole : Bool
  deriving DecidableEq, Repr

/-- The literal of a natural number. -/
def Literal.ofNat (n : Nat) : Literal :=
  ⟨false, n, 0, true⟩

/-- How many of the last digits must go for the rest to be a word. -/
def Literal.excess (l : Literal) : Nat :=
  go l.digits
where
  /-- The digits to drop from `n`. -/
  go (n : Nat) : Nat :=
    if n < UInt64.size then 0 else go (n / 10) + 1
  termination_by n
  decreasing_by
    have hpos : 0 < UInt64.size := by decide
    exact Nat.div_lt_self (Nat.lt_of_lt_of_le hpos (Nat.not_lt.1 ‹_›)) (by decide)

/-- The magnitude has no double: that of the leading digits that make a word, times that of the
power of ten behind them, is not finite. -/
def Literal.isHuge (l : Literal) : Bool :=
  let word := l.digits / Nat.pow 10 l.excess
  match l.exponent + l.excess with
  | .negSucc _ => false
  | .ofNat e =>
    word != 0 && (e > 308 ||
      Rounding.toPrecision word * Rounding.toPrecision (Nat.pow 10 e) ≥ Rounding.infinite)

/-- A string with its escapes resolved, as far as its surrogates are paired. -/
structure Token where
  text : String
  paired : Bool := true
  deriving DecidableEq, Repr

/-- How a list of items or members ends: at its bracket, or where the text stops being JSON, with
or without a comma before that. -/
inductive Ending
  | closed
  | cut (comma : Bool) (at_ : Break)
  deriving DecidableEq, Repr

end Json

/-- A document, as far as its text is JSON. -/
inductive Json
  | null
  | bool (b : Bool)
  | number (n : Json.Literal)
  | string (s : Json.Token)
  | array (items : List Json) (ending : Json.Ending)
  | object (members : List (Json.Token × Json)) (ending : Json.Ending)
  | broken (at_ : Json.Break)

namespace Json

/-- A complete array. -/
def ofList (items : List Json) : Json :=
  .array items .closed

/-- A complete object. -/
def ofMembers (members : List (String × Json)) : Json :=
  .object (members.map fun (k, v) => (⟨k, true⟩, v)) .closed

/-- The value of a string. -/
def ofString (s : String) : Json :=
  .string ⟨s, true⟩

/-- The value of a word. -/
def ofWord (a : UInt64) : Json :=
  .number (.ofNat a.toNat)

/-- The value of an optional one: null when there is none. -/
def ofOption {α : Type} (f : α → Json) : Option α → Json
  | none => .null
  | some a => f a

end Json

end HostServices
