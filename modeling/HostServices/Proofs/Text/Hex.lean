import HostServices.Text.Hex
import Mathlib.Data.Nat.Notation
import Mathlib.Tactic.IntervalCases

/-!
# Digits of a number

A number that is small enough has exactly as many digits as it is padded to: they are its last ones
(`padded_eq_digits`), and it is known by them (`digits_inj`, `toDigits_inj`). No digit ends a line
(`newline_notMem_digits`).
-/

namespace HostServices.Hex

/-- The last `width` digits of `n`. -/
def digits : ℕ → ℕ → List Char
  | 0, _ => []
  | width + 1, n => digits width (n / 16) ++ [Nat.digitChar (n % 16)]

theorem length_digits (width n : ℕ) : (digits width n).length = width := by
  induction width generalizing n with
  | zero => rfl
  | succ width ih => rw [digits, List.length_append, ih, List.length_singleton]

/-- The last digits are those of the remainder. -/
theorem digits_mod (width n : ℕ) : digits width (n % 16 ^ width) = digits width n := by
  induction width generalizing n with
  | zero => rfl
  | succ width ih =>
    rw [digits, digits, Nat.pow_succ', Nat.mod_mul_right_div_self, Nat.mod_mul_right_mod, ih]

theorem notMem_digits {c : Char} (hc : ∀ d < 16, c ≠ Nat.digitChar d) (width n : ℕ) :
    c ∉ digits width n := by
  induction width generalizing n with
  | zero => exact List.not_mem_nil
  | succ width ih =>
    rw [digits, List.mem_append, List.mem_singleton, not_or]
    exact ⟨ih _, hc _ (Nat.mod_lt _ (by decide))⟩

/-- No digit ends a line. -/
theorem newline_notMem_digits (width n : ℕ) : '\n' ∉ digits width n :=
  notMem_digits (by decide) width n

theorem digitChar_inj {d e : ℕ} (hd : d < 16) (he : e < 16)
    (h : Nat.digitChar d = Nat.digitChar e) : d = e := by
  have hall : ∀ d < 16, ∀ e < 16, Nat.digitChar d = Nat.digitChar e → d = e := by decide
  exact hall d hd e he h

/-- A number that is small enough is known by its last digits. -/
theorem digits_inj {width m n : ℕ} (hm : m < 16 ^ width) (hn : n < 16 ^ width)
    (h : digits width m = digits width n) : m = n := by
  induction width generalizing m n with
  | zero => rw [Nat.lt_one_iff.1 hm, Nat.lt_one_iff.1 hn]
  | succ width ih =>
    obtain ⟨hfront, hlast⟩ := List.append_inj' h rfl
    rw [Nat.pow_succ'] at hm hn
    have hdiv := ih (Nat.div_lt_of_lt_mul hm) (Nat.div_lt_of_lt_mul hn) hfront
    have hmod := digitChar_inj (Nat.mod_lt m (by decide)) (Nat.mod_lt n (by decide))
      (List.singleton_inj.1 hlast)
    omega

/-! ## Padding -/

theorem padded_zero {width : ℕ} (hpos : 0 < width) :
    padded width 0 = List.replicate width '0' := by
  rw [padded, Nat.toDigits_zero, List.length_singleton, ← List.replicate_succ',
    Nat.sub_add_cancel hpos]

/-- Padding does not touch the last digit. -/
theorem padded_succ {width : ℕ} (hpos : 0 < width) (n : ℕ) :
    padded (width + 1) n = padded width (n / 16) ++ [Nat.digitChar (n % 16)] := by
  rcases Nat.lt_or_ge n 16 with hlt | hge
  · rw [Nat.div_eq_of_lt hlt, Nat.mod_eq_of_lt hlt, padded_zero hpos, padded,
      Nat.toDigits_of_lt_base hlt]
    rfl
  · rw [padded, padded, Nat.toDigits_of_base_le (by decide) hge, List.length_append,
      List.length_singleton, ← List.append_assoc, Nat.add_sub_add_right]

/-- A number that is small enough is padded to its last digits. -/
theorem padded_eq_digits {width n : ℕ} (hpos : 0 < width) (hn : n < 16 ^ width) :
    padded width n = digits width n := by
  induction width, hpos using Nat.le_induction generalizing n with
  | base =>
    rw [Nat.pow_one] at hn
    rw [padded, Nat.toDigits_of_lt_base hn, digits, Nat.mod_eq_of_lt hn]
    rfl
  | succ width hpos ih =>
    rw [padded_succ hpos, digits, ih (Nat.div_lt_of_lt_mul (Nat.pow_succ' ▸ hn))]

/-! ## As few digits as possible -/

theorem lt_pow_length_toDigits (n : ℕ) : n < 16 ^ (Nat.toDigits 16 n).length :=
  (Nat.length_toDigits_le_iff (by decide) Nat.length_toDigits_pos).1 (Nat.le_refl _)

theorem toDigits_eq_digits (n : ℕ) : Nat.toDigits 16 n = digits (Nat.toDigits 16 n).length n := by
  rw [← padded_eq_digits Nat.length_toDigits_pos (lt_pow_length_toDigits n), padded, Nat.sub_self,
    List.replicate_zero, List.nil_append]

theorem toDigits_inj {m n : ℕ} : Nat.toDigits 16 m = Nat.toDigits 16 n ↔ m = n := by
  refine ⟨fun h => ?_, fun h => h ▸ rfl⟩
  have hm := lt_pow_length_toDigits m
  rw [h] at hm
  refine digits_inj hm (lt_pow_length_toDigits n) ?_
  rw [← toDigits_eq_digits n, ← h, ← toDigits_eq_digits]

theorem toList_word (a : UInt64) : (word a).toList = '0' :: 'x' :: Nat.toDigits 16 a.toNat := by
  have hpadded : padded 1 a.toNat = Nat.toDigits 16 a.toNat := by
    rw [padded, Nat.sub_eq_zero_of_le Nat.length_toDigits_pos, List.replicate_zero, List.nil_append]
  simp [word, ofNat, hpadded]

end HostServices.Hex
