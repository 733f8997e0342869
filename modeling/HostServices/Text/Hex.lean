/-!
# Hexadecimal text

Lowercase digits, most significant first.
-/

namespace HostServices.Hex

/-- The digits of `n`, with leading zeros up to `width` of them. -/
def padded (width n : Nat) : List Char :=
  let digits := Nat.toDigits 16 n
  List.replicate (width - digits.length) '0' ++ digits

/-- `0x` and the digits of `n`, at least `width` of them. -/
def ofNat (n : Nat) (width : Nat := 1) : String :=
  "0x" ++ String.ofList (padded width n)

/-- `0x` and the digits of `a`, as few as possible. -/
def word (a : UInt64) : String :=
  ofNat a.toNat

/-- `0x` and all sixteen digits of `a`. -/
def address (a : UInt64) : String :=
  ofNat a.toNat 16

/-- Two digits for each byte. -/
def bytes (bs : List UInt8) : String :=
  String.ofList (bs.flatMap fun b => padded 2 b.toNat)

theorem le_length_padded (width n : Nat) : width ≤ (padded width n).length := by
  simp only [padded, List.length_append, List.length_replicate]
  omega

end HostServices.Hex
