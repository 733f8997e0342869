import HostServices.Rounding

/-!
# Byte counts as text

Two forms. The exact form takes the largest unit that divides the count, `2M`. The scaled form
divides by 1024 until the quotient is below 1024 and shows two places, `1.50 KB`; a half in the
third place goes to the even neighbour, and a count of more than 53 bits is first rounded to 53.
-/

namespace HostServices.ByteSize

/-- The units of the exact form, with the power of two that each stands for. -/
inductive ByteUnit
  | byte
  | kilo
  | mega
  | giga
  deriving DecidableEq, Repr

/-- The number of bytes in a unit. -/
def ByteUnit.bytes : ByteUnit → Nat
  | .byte => 1
  | .kilo => 1024
  | .mega => 1024 * 1024
  | .giga => 1024 * 1024 * 1024

/-- The letter of a unit. -/
def ByteUnit.letter : ByteUnit → String
  | .byte => "B"
  | .kilo => "K"
  | .mega => "M"
  | .giga => "G"

/-- The largest unit that divides `n`; zero bytes are counted in bytes. -/
def exactUnit (n : Nat) : ByteUnit :=
  let fits (u : ByteUnit) := n != 0 && n % u.bytes == 0
  if fits .giga then .giga else if fits .mega then .mega else if fits .kilo then .kilo else .byte

/-- The count of `n` in its exact unit. -/
def inExactUnit (n : Nat) : Nat :=
  n / (exactUnit n).bytes

/-- The exact form. -/
def exact (n : Nat) : String :=
  s!"{inExactUnit n}{(exactUnit n).letter}"

/-- How often `n` can be divided by 1024 before it falls below 1024, five times at most. -/
def scale (n : Nat) : Nat :=
  Nat.min 5 (n.log2 / 10)

/-- The names of the scaled units. -/
def scaledUnit : Nat → String
  | 0 => "B"
  | 1 => "KB"
  | 2 => "MB"
  | 3 => "GB"
  | 4 => "TB"
  | _ => "PB"

/-- The scaled form. -/
def scaled (n : Nat) : String :=
  let m := Rounding.toPrecision n
  let k := scale m
  if k = 0 then s!"{n} B"
  else
    let hundredths := Rounding.divide (100 * m) (1 <<< (10 * k))
    let places := hundredths % 100
    s!"{hundredths / 100}.{places / 10}{places % 10} {scaledUnit k}"

end HostServices.ByteSize
