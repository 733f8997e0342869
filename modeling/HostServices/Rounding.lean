/-!
# Rounding to the nearest

Natural numbers rounded to a whole quotient or to the precision of a double, with a half going to
the even neighbour.
-/

namespace HostServices.Rounding

/-- The quotient to the nearest whole number, a half to the even neighbour. -/
def divide (num den : Nat) : Nat :=
  let q := num / den
  let r := num % den
  if 2 * r < den then q
  else if 2 * r > den then q + 1
  else q + q % 2

/-- `n` rounded to 53 significant bits. -/
def toPrecision (n : Nat) : Nat :=
  let unit := 1 <<< (n.log2 - 52)
  divide n unit * unit

/-- The least number that is rounded to no finite double. -/
def infinite : Nat :=
  1 <<< 1024 - 1 <<< 970

end HostServices.Rounding
