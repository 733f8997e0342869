/-!
# Columns of text
-/

namespace HostServices.Text

/-- `s` at the right end of a column of `width` characters; a longer text is kept whole. -/
def alignRight (width : Nat) (s : String) : String :=
  String.ofList (List.replicate (width - s.length) ' ') ++ s

/-- A number with leading zeros up to `width` digits. -/
def zeroPadded (width n : Nat) : String :=
  let digits := Nat.toDigits 10 n
  String.ofList (List.replicate (width - digits.length) '0' ++ digits)

/-- `count` blanks. -/
def blanks (count : Nat) : String :=
  String.ofList (List.replicate count ' ')

end HostServices.Text
