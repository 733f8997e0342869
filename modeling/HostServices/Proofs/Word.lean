import HostServices.Word
import Mathlib.Algebra.GroupWithZero.Nat
import Mathlib.Order.Basic

/-!
# Words as numbers

What the operations on words do to the numbers they stand for.
-/

namespace HostServices.Word

theorem toNat_max (a b : UInt64) : (max a b).toNat = Max.max a.toNat b.toNat := by
  unfold max
  split
  · rename_i h
    exact (Nat.max_eq_right (Nat.le_of_lt (UInt64.lt_iff_toNat_lt.1 h))).symm
  · rename_i h
    exact (Nat.max_eq_left (UInt64.le_iff_toNat_le.1 (UInt64.not_lt.1 h))).symm

theorem toNat_min (a b : UInt64) : (min a b).toNat = Min.min a.toNat b.toNat := by
  unfold min
  split
  · rename_i h
    exact (Nat.min_eq_left (Nat.le_of_lt (UInt64.lt_iff_toNat_lt.1 h))).symm
  · rename_i h
    exact (Nat.min_eq_right (UInt64.le_iff_toNat_le.1 (UInt64.not_lt.1 h))).symm

theorem toNat_ne_zero {a : UInt64} (h : a ≠ 0) : a.toNat ≠ 0 :=
  fun hzero => h (UInt64.toNat_inj.1 hzero)

theorem toNat_lt_of_ne_top {a : UInt64} (h : a ≠ top) : a.toNat < 2 ^ 64 - 1 := by
  have hlt := a.toNat_lt
  have hne : a.toNat ≠ 2 ^ 64 - 1 := fun htop => h (UInt64.toNat_inj.1 htop)
  omega

theorem toNat_add_of_lt {a b : UInt64} (h : a.toNat + b.toNat < 2 ^ 64) :
    (a + b).toNat = a.toNat + b.toNat := by
  rw [UInt64.toNat_add, Nat.mod_eq_of_lt h]

theorem toNat_sub_of_le {a b : UInt64} (h : b.toNat ≤ a.toNat) : (a - b).toNat = a.toNat - b.toNat :=
  UInt64.toNat_sub_of_le _ _ (UInt64.le_iff_toNat_le.2 h)

/-! ## Bits -/

theorem lt_of_testBit {a : UInt64} {k : ℕ} (h : a.toNat.testBit k = true) : k < 64 :=
  (Nat.pow_lt_pow_iff_right Nat.one_lt_two).1
    (Nat.lt_of_le_of_lt (Nat.ge_two_pow_of_testBit h) a.toNat_lt)

theorem testBit_not (a : UInt64) (k : ℕ) :
    (~~~a).toNat.testBit k = (decide (k < 64) && !a.toNat.testBit k) := by
  have hword : (~~~a).toNat = 2 ^ 64 - (a.toNat + 1) := by
    rw [UInt64.toNat_not]
    exact Nat.sub_right_comm ..
  rw [hword, Nat.testBit_two_pow_sub_succ a.toNat_lt]

/-- A word and its negative share the lowest bit only. -/
theorem testBit_and_neg (a : UInt64) (k : ℕ) :
    (a &&& (0 - a)).toNat.testBit k = true ↔
      a.toNat.testBit k = true ∧ ∀ j < k, a.toNat.testBit j = false := by
  have hneg : (a &&& (0 - a)).toBitVec = a.toBitVec &&& -a.toBitVec := by simp
  rw [← UInt64.toNat_toBitVec, BitVec.testBit_toNat, hneg, BitVec.getLsbD_and, BitVec.getLsbD_neg]
  simp only [← BitVec.testBit_toNat, UInt64.toNat_toBitVec]
  cases hk : a.toNat.testBit k with
  | false => simp
  | true => simp [lt_of_testBit hk]

/-! ## Sums and products that are words -/

theorem add?_of_lt {a b : UInt64} (h : a.toNat + b.toNat < 2 ^ 64) : add? a b = some (a + b) :=
  if_pos h

theorem add?_of_le {a b : UInt64} (h : 2 ^ 64 ≤ a.toNat + b.toNat) : add? a b = none :=
  if_neg (Nat.not_lt.2 h)

theorem toNat_of_add? {a b c : UInt64} (h : add? a b = some c) :
    c.toNat = a.toNat + b.toNat ∧ a.toNat + b.toNat < 2 ^ 64 := by
  unfold add? at h
  split at h
  · rename_i hlt
    obtain rfl := Option.some.inj h
    exact ⟨toNat_add_of_lt hlt, hlt⟩
  · cases h

theorem toNat_addSat (a b : UInt64) :
    (addSat a b).toNat = Min.min (a.toNat + b.toNat) (2 ^ 64 - 1) := by
  unfold addSat
  rcases Nat.lt_or_ge (a.toNat + b.toNat) (2 ^ 64) with h | h
  · rw [add?_of_lt h, Option.getD_some, toNat_add_of_lt h, eq_comm]
    exact Nat.min_eq_left (by omega)
  · rw [add?_of_le h, Option.getD_none, eq_comm]
    exact Nat.min_eq_right (by omega)

theorem mul?_eq_some_iff {a b c : UInt64} : mul? a b = some c ↔ a.toNat * b.toNat = c.toNat := by
  constructor
  · intro h
    unfold mul? at h
    split at h
    · rename_i hlt
      obtain rfl := Option.some.inj h
      rw [UInt64.toNat_mul, Nat.mod_eq_of_lt hlt]
    · cases h
  · intro h
    have hlt : a.toNat * b.toNat < UInt64.size := h ▸ c.toNat_lt
    have hproduct : a * b = c := by
      rw [← UInt64.toNat_inj, UInt64.toNat_mul, Nat.mod_eq_of_lt hlt, h]
    rw [mul?, if_pos hlt, hproduct]

end HostServices.Word
