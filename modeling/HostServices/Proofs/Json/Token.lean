import HostServices.Json.Printer
import HostServices.Json.Scanner
import Mathlib.Data.List.TakeWhile

/-!
# Strings and numbers read back

A printed string is scanned character by character, each from its escaped form
(`stringBody_escaped`, `token_quoted`). The digits of a number have no leading zero
(`toDigits_ne_zero_cons`), so they are scanned as a whole number if nothing behind them goes on with
it (`literal_toDigits`).
-/

namespace HostServices.Json

variable {c : Char} {cs ds rest : List Char}

/-! ## Strings -/

/-- The escape of a control character. -/
theorem hexUnit_padded {n : ℕ} (hn : n < 0x20) (rest : List Char) :
    hexUnit (Hex.padded 4 n ++ rest) = .ok (n, rest) := by
  have hpadded : ∀ n < 0x20, Hex.padded 4 n =
      [Nat.digitChar 0, Nat.digitChar 0, (n / 16).digitChar, (n % 16).digitChar] := by decide
  have hvalue : ∀ d < 16, hexValue? d.digitChar = some d := by decide
  have hsize : ∀ d < 16, d.digitChar.utf8Size = 1 := by decide
  have hcount : ¬ Text.byteCount ((Hex.padded 4 n ++ rest).take 4) < 4 := by
    rw [hpadded n hn]
    simp only [List.cons_append, List.take_succ_cons, List.take_zero, Text.byteCount,
      List.foldr_cons, List.foldr_nil, hsize 0 (by decide), hsize (n / 16) (by omega),
      hsize (n % 16) (by omega)]
    decide
  unfold hexUnit
  rw [if_neg hcount, hpadded n hn]
  simp only [List.cons_append, hvalue 0 (by decide), hvalue (n / 16) (by omega),
    hvalue (n % 16) (by omega)]
  congr 2
  omega

/-- A character that is not escaped stands for itself. -/
theorem stringBody_plain (hquote : c ≠ '"') (hslash : c ≠ '\\') (hcontrol : ¬ c.toNat < 0x20)
    (fuel : ℕ) (cs done : List Char) :
    stringBody (fuel + 1) (c :: cs) done none = stringBody fuel cs (c :: done) none := by
  conv => lhs; unfold stringBody
  split
  case h_1 heq => cases heq
  case h_2 heq => exact absurd (List.cons.inj heq).1 hquote
  case h_3 heq => exact absurd (List.cons.inj heq).1 hslash
  case h_4 heq => exact absurd (List.cons.inj heq).1 hslash
  case h_5 heq => exact absurd (List.cons.inj heq).1 hslash
  case h_6 heq =>
    cases heq
    exact if_neg hcontrol

/-- One character is scanned from its form inside a string. -/
theorem stringBody_escaped (c : Char) (fuel : ℕ) (cs done : List Char) :
    stringBody (fuel + 1) (escaped c ++ cs) done none = stringBody fuel cs (c :: done) none := by
  unfold escaped
  split
  case h_8 hquote hslash _ _ _ _ _ =>
    by_cases hcontrol : c.toNat < 0x20
    · have hhigh : isHighSurrogate c.toNat = false := by
        simp [isHighSurrogate]
        omega
      have hlow : isLowSurrogate c.toNat = false := by
        simp [isLowSurrogate]
        omega
      rw [if_pos hcontrol]
      simp only [List.cons_append, stringBody, hexUnit_padded hcontrol, hhigh, hlow,
        Bool.false_eq_true, if_false, Char.ofNat_toNat]
    · rw [if_neg hcontrol]
      exact stringBody_plain hquote hslash hcontrol fuel cs done
  all_goals rfl

theorem escaped_ne_nil (c : Char) : escaped c ≠ [] := by
  unfold escaped
  split
  case h_8 => split <;> exact List.cons_ne_nil _ _
  all_goals exact List.cons_ne_nil _ _

theorem stringBody_quoted (s : List Char) {fuel : ℕ} (hfuel : s.length < fuel) (rest done : List Char) :
    stringBody fuel (s.flatMap escaped ++ '"' :: rest) done none =
      ⟨s.reverse ++ done, none, .ok rest⟩ := by
  induction s generalizing fuel done with
  | nil =>
    obtain ⟨fuel, rfl⟩ := Nat.exists_eq_add_one_of_ne_zero (Nat.ne_zero_of_lt hfuel)
    rfl
  | cons c s ih =>
    obtain ⟨fuel, rfl⟩ := Nat.exists_eq_add_one_of_ne_zero (Nat.ne_zero_of_lt hfuel)
    rw [List.flatMap_cons, List.append_assoc, stringBody_escaped, ih (Nat.lt_of_succ_lt_succ hfuel)]
    simp

theorem length_le_flatMap_escaped (s : List Char) : s.length ≤ (s.flatMap escaped).length := by
  induction s with
  | nil => exact Nat.le_refl _
  | cons c s ih =>
    have hc := List.length_pos_iff.2 (escaped_ne_nil c)
    rw [List.flatMap_cons, List.length_append, List.length_cons]
    omega

/-- A printed string is read back behind its opening quote. -/
theorem token_quoted (s : String) (rest : List Char) :
    token (s.toList.flatMap escaped ++ '"' :: rest) = .ok (⟨s, true⟩, rest) := by
  have hfuel : s.toList.length <
      (s.toList.flatMap escaped ++ '"' :: rest).length + 1 := by
    have := length_le_flatMap_escaped s.toList
    rw [List.length_append]
    omega
  rw [token, stringBody_quoted _ hfuel]
  simp

/-! ## Numbers -/

/-- Nothing that could go on with a number. -/
def Stops (rest : List Char) : Prop :=
  ∀ c ∈ rest.head?, c.isDigit = false ∧ c ≠ '.' ∧ c ≠ 'e' ∧ c ≠ 'E'

theorem stops_nil : Stops [] := nofun

theorem digits_append (hds : ∀ c ∈ ds, c.isDigit = true) (hrest : Stops rest) :
    digits (ds ++ rest) = (ds, rest) := by
  have hnone : rest.takeWhile Char.isDigit = [] ∧ rest.dropWhile Char.isDigit = rest := by
    cases rest with
    | nil => exact ⟨rfl, rfl⟩
    | cons c cs =>
      have hc : ¬ c.isDigit = true := Bool.eq_false_iff.1 (hrest c rfl).1
      exact ⟨List.takeWhile_cons_of_neg hc, List.dropWhile_cons_of_neg hc⟩
  rw [digits, List.takeWhile_append_of_pos hds, List.dropWhile_append_of_pos hds, hnone.1, hnone.2,
    List.append_nil]

/-- The digits of a number other than zero do not begin with one. -/
theorem toDigits_ne_zero_cons {n : ℕ} (hn : n ≠ 0) (cs : List Char) : Nat.toDigits 10 n ≠ '0' :: cs := by
  induction n using Nat.base_induction 10 (by decide) generalizing cs with
  | single m hm =>
    rw [Nat.toDigits_of_lt_base hm]
    have hdigit : ∀ m < 10, m ≠ 0 → m.digitChar ≠ '0' := by decide
    intro heq
    exact hdigit m hm hn (List.cons.inj heq).1
  | digit m k hk hm ih =>
    rw [← Nat.toDigits_append_toDigits (by decide) hm hk]
    obtain ⟨d, ds, hds⟩ := List.exists_cons_of_ne_nil (Nat.toDigits_ne_nil (n := m) (b := 10))
    rw [hds]
    intro heq
    exact ih (Nat.ne_of_gt hm) ds (hds.trans (congrArg (· :: ds) (List.cons.inj heq).1))

theorem wholePart_toDigits (n : ℕ) (hrest : Stops rest) :
    wholePart (Nat.toDigits 10 n ++ rest) = .ok (Nat.toDigits 10 n, rest) := by
  have hdigits : digits (Nat.toDigits 10 n ++ rest) = (Nat.toDigits 10 n, rest) :=
    digits_append (fun c hc => Nat.isDigit_of_mem_toDigits (by decide) (by decide) hc) hrest
  have hzero (ds : List Char) (hds : Nat.toDigits 10 n = '0' :: ds) : ds = [] := by
    by_cases hn : n = 0
    · rw [hn] at hds
      exact (List.cons.inj hds).2.symm
    · exact absurd hds (toDigits_ne_zero_cons hn ds)
  unfold wholePart
  rw [hdigits]
  split
  case h_1 heq => exact absurd (Prod.mk.inj heq).1 Nat.toDigits_ne_nil
  case h_2 heq =>
    obtain ⟨hds, rfl⟩ := Prod.mk.inj heq
    rw [hds]
  case h_3 hnot heq => exact absurd (hzero _ (Prod.mk.inj heq).1) hnot
  case h_4 heq =>
    obtain ⟨rfl, rfl⟩ := Prod.mk.inj heq
    rfl

theorem fraction_of_stops (hrest : Stops rest) : fraction rest = .ok (none, rest) := by
  unfold fraction
  split
  · exact absurd rfl (hrest '.' rfl).2.1
  · rfl

theorem exponent_of_stops (hrest : Stops rest) : exponent rest = .ok (none, rest) := by
  cases rest with
  | nil => rfl
  | cons c cs =>
    obtain ⟨-, -, he, hE⟩ := hrest c rfl
    exact if_neg (not_or.2 ⟨he, hE⟩)

/-- The digits of a number are read back. -/
theorem literal_toDigits (n : ℕ) (hrest : Stops rest) :
    literal false (Nat.toDigits 10 n ++ rest) = .ok (.ofNat n, rest) := by
  have hvalue : digitsValue (Nat.toDigits 10 n) = n := Nat.ofDigitChars_ten_toDigits
  unfold literal
  rw [wholePart_toDigits n hrest]
  simp only [bind, Except.bind, fraction_of_stops hrest, exponent_of_stops hrest,
    Option.getD_none, List.append_nil, hvalue]
  rfl

end HostServices.Json
