import HostServices.ByteSize
import HostServices.Text.Blank
import HostServices.Word

/-!
# Sizes in configuration text

A size is an optional `+`, decimal digits and at most one of the letters `k`, `m` and `g`, in
either case, which multiply by 2^10, 2^20 and 2^30. The printed form takes the largest letter that
divides the size.
-/

namespace HostServices.SizeText

/-- Why a text is not a size; the text is quoted without the blanks around it. -/
inductive Problem
  | invalid (text : List Char)
  | overflow (text : List Char)
  deriving DecidableEq, Repr

/-- The text of a problem. -/
def Problem.message : Problem → String
  | .invalid text => s!"invalid size \"{String.ofList text}\""
  | .overflow text => s!"size \"{String.ofList text}\" overflows"

/-- The power of two that a letter stands for. -/
def shift? (c : Char) : Option Nat :=
  match c.toLower with
  | 'k' => some 10
  | 'm' => some 20
  | 'g' => some 30
  | _ => none

/-- The digits of a size and the power of two behind them. -/
def cutLetter (cs : List Char) : List Char × Nat :=
  match cs.getLast? with
  | none => (cs, 0)
  | some c =>
    match shift? c with
    | some k => (cs.dropLast, k)
    | none => (cs, 0)

/-- The number that decimal digits stand for. -/
def decimal (ds : List Char) : Nat :=
  ds.foldl (fun n c => 10 * n + (c.toNat - '0'.toNat)) 0

/-- A number without sign, or with a `+`, that is a word. -/
def number? (cs : List Char) : Option UInt64 :=
  let ds := match cs with
    | '+' :: rest => rest
    | _ => cs
  if ds ≠ [] ∧ ds.all Char.isDigit ∧ decimal ds < UInt64.size then some (UInt64.ofNat (decimal ds))
  else none

/-- Read a size. -/
def parse (text : List Char) : Except Problem UInt64 :=
  let cs := Text.trim text
  let (digits, k) := cutLetter cs
  match number? digits with
  | none => .error (.invalid cs)
  | some n =>
    match Word.mul? n (UInt64.ofNat (1 <<< k)) with
    | none => .error (.overflow cs)
    | some bytes => .ok bytes

/-- The letter of a unit in the printed form. -/
def letter : ByteSize.ByteUnit → List Char
  | .byte => []
  | .kilo => ['k']
  | .mega => ['m']
  | .giga => ['g']

/-- Print a size. -/
def render (bytes : UInt64) : List Char :=
  Nat.toDigits 10 (ByteSize.inExactUnit bytes.toNat) ++ letter (ByteSize.exactUnit bytes.toNat)

end HostServices.SizeText
