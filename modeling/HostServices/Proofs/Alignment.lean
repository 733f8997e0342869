import HostServices.Alignment
import HostServices.Proofs.Word
import Mathlib.Order.Bounds.Basic

/-!
# Rounding as arithmetic

Clearing the bits below a power of two leaves the quotient times that power (`toNat_clear`). So
rounding down gives the greatest multiple that is not above (`isGreatest_alignDown`). Rounding up
gives the least multiple that is not below, if that is a word (`isLeast_alignUp`), and wraps to zero
otherwise (`alignUp_of_lt`). The checked variant answers in the first case only
(`alignUp?_eq_some_iff`, `alignUp?_eq_none_iff`). `Alignment.rounding_exact` says all of it of the
functions that callers meet.
-/

namespace HostServices.Word

variable {value alignment : UInt64}

/-! ## Powers of two and their masks -/

theorem toNat_sub_one (h : alignment.toNat ≠ 0) : (alignment - 1).toNat = alignment.toNat - 1 :=
  toNat_sub_of_le (Nat.one_le_iff_ne_zero.2 h)

theorem isPowerOfTwo_iff : isPowerOfTwo alignment = true ↔ alignment.toNat.isPowerOfTwo := by
  rw [← Nat.ne_zero_and_sub_one_eq_zero_iff_isPowerOfTwo, isPowerOfTwo, Bool.and_eq_true,
    bne_iff_ne, beq_iff_eq, ne_eq, ← UInt64.toNat_inj, ← UInt64.toNat_inj, UInt64.toNat_and]
  refine and_congr_right fun hne => ?_
  rw [toNat_sub_one hne]
  rfl

/-- A power of two that is a word divides the number of words. -/
theorem dvd_size (h : isPowerOfTwo alignment = true) : alignment.toNat ∣ 2 ^ 64 := by
  obtain ⟨k, hk⟩ := isPowerOfTwo_iff.1 h
  have hlt := alignment.toNat_lt
  rw [hk] at hlt ⊢
  exact Nat.pow_dvd_pow 2 ((Nat.pow_lt_pow_iff_right (by decide)).1 hlt).le

theorem dvd_of_isPowerOfTwo {a b : UInt64} (ha : isPowerOfTwo a = true) (hb : isPowerOfTwo b = true)
    (hle : a ≤ b) : a.toNat ∣ b.toNat := by
  obtain ⟨i, hi⟩ := isPowerOfTwo_iff.1 ha
  obtain ⟨j, hj⟩ := isPowerOfTwo_iff.1 hb
  have hpow := UInt64.le_iff_toNat_le.1 hle
  rw [hi, hj] at hpow ⊢
  exact Nat.pow_dvd_pow 2 ((Nat.pow_le_pow_iff_right (by decide)).1 hpow)

/-- A larger power of two is at least twice as large. -/
theorem two_mul_le_of_lt {a b : UInt64} (ha : isPowerOfTwo a = true) (hb : isPowerOfTwo b = true)
    (hlt : a < b) : 2 * a.toNat ≤ b.toNat := by
  obtain ⟨i, hi⟩ := isPowerOfTwo_iff.1 ha
  obtain ⟨j, hj⟩ := isPowerOfTwo_iff.1 hb
  rw [UInt64.lt_iff_toNat_lt, hi, hj] at hlt
  rw [hi, hj, ← Nat.pow_succ']
  exact Nat.pow_le_pow_right (by decide) ((Nat.pow_lt_pow_iff_right (by decide)).1 hlt)

/-- Without the bits below `2 ^ k`, a word is a multiple of it. -/
theorem toNat_clear (n mask : UInt64) {k : ℕ} (hmask : mask.toNat = 2 ^ k - 1) :
    (n &&& ~~~mask).toNat = 2 ^ k * (n.toNat / 2 ^ k) := by
  refine Nat.eq_of_testBit_eq fun i => ?_
  have hcleared : (~~~mask).toNat.testBit i = (decide (i < 64) && !decide (i < k)) := by
    rw [testBit_not, hmask, Nat.testBit_two_pow_sub_one]
  rw [UInt64.toNat_and, Nat.testBit_and, hcleared, Nat.testBit_two_pow_mul, Nat.testBit_div_two_pow]
  rcases Nat.lt_or_ge i k with hlow | hhigh
  · simp [hlow, Nat.not_le.2 hlow]
  · rw [Nat.sub_add_cancel hhigh]
    rcases Nat.lt_or_ge i 64 with hin | hout
    · simp [hin, hhigh]
    · have hzero : n.toNat.testBit i = false :=
        Nat.testBit_lt_two_pow (Nat.lt_of_lt_of_le n.toNat_lt (Nat.pow_le_pow_right (by decide) hout))
      simp [hzero]

/-! ## Rounding -/

theorem toNat_alignDown (h : isPowerOfTwo alignment = true) :
    (alignDown value alignment).toNat = alignment.toNat * (value.toNat / alignment.toNat) := by
  obtain ⟨k, hk⟩ := isPowerOfTwo_iff.1 h
  have hmask : (alignment - 1).toNat = 2 ^ k - 1 := by
    rw [toNat_sub_one (hk ▸ Nat.ne_of_gt (Nat.two_pow_pos k)), hk]
  rw [alignDown, toNat_clear value (alignment - 1) hmask, hk]

theorem alignUp_eq (value alignment : UInt64) :
    alignUp value alignment = alignDown (value + (alignment - 1)) alignment := rfl

theorem alignUp_of_alignUp? {up : UInt64} (h : alignUp? value alignment = some up) :
    alignUp value alignment = up := by
  obtain ⟨sum, hsum, rfl⟩ := Option.map_eq_some_iff.1 h
  obtain ⟨hsum, hword⟩ := toNat_of_add? hsum
  rw [← toNat_add_of_lt hword, UInt64.toNat_inj] at hsum
  rw [hsum, alignUp]

section

variable (h : isPowerOfTwo alignment = true)
include h

theorem toNat_pos_of_isPowerOfTwo : 0 < alignment.toNat :=
  Nat.pos_of_isPowerOfTwo (isPowerOfTwo_iff.1 h)

/-- The bits below a power of two are the remainder. -/
theorem isAligned_iff : isAligned value alignment = true ↔ alignment.toNat ∣ value.toNat := by
  obtain ⟨k, hk⟩ := isPowerOfTwo_iff.1 h
  have hmask := toNat_sub_one (Nat.ne_of_gt (toNat_pos_of_isPowerOfTwo h))
  rw [isAligned, beq_iff_eq, ← UInt64.toNat_inj, UInt64.toNat_and, hmask, hk,
    Nat.and_two_pow_sub_one_eq_mod, Nat.dvd_iff_mod_eq_zero]
  rfl

theorem dvd_alignDown : alignment.toNat ∣ (alignDown value alignment).toNat := by
  rw [toNat_alignDown h]
  exact Nat.dvd_mul_right ..

theorem alignDown_le : (alignDown value alignment).toNat ≤ value.toNat := by
  rw [toNat_alignDown h]
  exact Nat.mul_div_le ..

/-- The greatest multiple that is not above. -/
theorem isGreatest_alignDown :
    IsGreatest {n : ℕ | alignment.toNat ∣ n ∧ n ≤ value.toNat} (alignDown value alignment).toNat := by
  refine ⟨⟨dvd_alignDown h, alignDown_le h⟩, ?_⟩
  rintro n ⟨⟨q, rfl⟩, hle⟩
  rw [toNat_alignDown h]
  apply Nat.mul_le_mul_left
  exact (Nat.le_div_iff_mul_le (toNat_pos_of_isPowerOfTwo h)).2 (Nat.mul_comm .. ▸ hle)

/-- The next multiple may be the number of words, but no more. -/
theorem alignDown_add_le : (alignDown value alignment).toNat + alignment.toNat ≤ 2 ^ 64 := by
  have hgap := Nat.le_of_dvd (Nat.sub_pos_of_lt (alignDown value alignment).toNat_lt)
    (Nat.dvd_sub (dvd_size h) (dvd_alignDown h))
  have hlt := (alignDown value alignment).toNat_lt
  omega

theorem dvd_alignUp : alignment.toNat ∣ (alignUp value alignment).toNat :=
  alignUp_eq value alignment ▸ dvd_alignDown h

theorem toNat_alignUp_of_le (hfits : value.toNat + (alignment.toNat - 1) < 2 ^ 64) :
    (alignUp value alignment).toNat =
      alignment.toNat * ((value.toNat + (alignment.toNat - 1)) / alignment.toNat) := by
  have hmask := toNat_sub_one (Nat.ne_of_gt (toNat_pos_of_isPowerOfTwo h))
  rw [alignUp_eq, toNat_alignDown h, toNat_add_of_lt (hmask.symm ▸ hfits), hmask]

/-- The least multiple that is not below, be it a word or not. -/
theorem isLeast_multiple :
    IsLeast {n : ℕ | alignment.toNat ∣ n ∧ value.toNat ≤ n}
      (alignment.toNat * ((value.toNat + (alignment.toNat - 1)) / alignment.toNat)) := by
  have hpos := toNat_pos_of_isPowerOfTwo h
  refine ⟨⟨Nat.dvd_mul_right .., ?_⟩, ?_⟩
  · have hdiv := Nat.div_add_mod (value.toNat + (alignment.toNat - 1)) alignment.toNat
    have hmod := Nat.mod_lt (value.toNat + (alignment.toNat - 1)) hpos
    omega
  · rintro n ⟨⟨q, rfl⟩, hle⟩
    have hlt : value.toNat + (alignment.toNat - 1) < (q + 1) * alignment.toNat := by
      rw [Nat.add_one_mul, Nat.mul_comm q]
      omega
    exact Nat.mul_le_mul_left _ (Nat.lt_succ_iff.1 ((Nat.div_lt_iff_lt_mul hpos).2 hlt))

/-- The least multiple that is not below. -/
theorem isLeast_alignUp (hfits : value.toNat + (alignment.toNat - 1) < 2 ^ 64) :
    IsLeast {n : ℕ | alignment.toNat ∣ n ∧ value.toNat ≤ n} (alignUp value alignment).toNat := by
  rw [toNat_alignUp_of_le h hfits]
  exact isLeast_multiple h

/-- Some multiple that is not below is a word if no carry leaves the word. -/
theorem exists_multiple_iff :
    (∃ n < 2 ^ 64, alignment.toNat ∣ n ∧ value.toNat ≤ n) ↔
      value.toNat + (alignment.toNat - 1) < 2 ^ 64 := by
  constructor
  · rintro ⟨n, hword, hn, hle⟩
    have hgap := Nat.le_of_dvd (by omega) (Nat.dvd_sub (dvd_size h) hn)
    have hpos := toNat_pos_of_isPowerOfTwo h
    omega
  · intro hfits
    exact ⟨_, (alignUp value alignment).toNat_lt, (isLeast_alignUp h hfits).1⟩

/-- Where the least multiple is no word, nothing is left. -/
theorem alignUp_of_lt (hbig : 2 ^ 64 ≤ value.toNat + (alignment.toNat - 1)) :
    alignUp value alignment = 0 := by
  have hmask := toNat_sub_one (Nat.ne_of_gt (toNat_pos_of_isPowerOfTwo h))
  have hvalue := value.toNat_lt
  have halignment := alignment.toNat_lt
  have hwrapped : (value + (alignment - 1)).toNat < alignment.toNat := by
    rw [UInt64.toNat_add, hmask]
    omega
  rw [← UInt64.toNat_inj, alignUp_eq, toNat_alignDown h, Nat.div_eq_of_lt hwrapped]
  rfl

/-! ## Rounding up with a check -/

theorem alignUp?_of_lt (hfits : value.toNat + (alignment.toNat - 1) < 2 ^ 64) :
    alignUp? value alignment = some (alignUp value alignment) := by
  rw [← toNat_sub_one (Nat.ne_of_gt (toNat_pos_of_isPowerOfTwo h))] at hfits
  rw [alignUp?, add?_of_lt hfits]
  rfl

theorem alignUp?_of_le (hbig : 2 ^ 64 ≤ value.toNat + (alignment.toNat - 1)) :
    alignUp? value alignment = none := by
  rw [← toNat_sub_one (Nat.ne_of_gt (toNat_pos_of_isPowerOfTwo h))] at hbig
  rw [alignUp?, add?_of_le hbig]
  rfl

/-- No least multiple that is a word is missed, and no other number is given for it. -/
theorem alignUp?_eq_some_iff {up : UInt64} :
    alignUp? value alignment = some up ↔
      IsLeast {n : ℕ | alignment.toNat ∣ n ∧ value.toNat ≤ n} up.toNat := by
  constructor
  · intro hup
    rcases Nat.lt_or_ge (value.toNat + (alignment.toNat - 1)) (2 ^ 64) with hfits | hbig
    · rw [alignUp?_of_lt h hfits] at hup
      exact Option.some.inj hup ▸ isLeast_alignUp h hfits
    · rw [alignUp?_of_le h hbig] at hup
      cases hup
  · intro hleast
    have hfits := (exists_multiple_iff h).1 ⟨up.toNat, up.toNat_lt, hleast.1⟩
    rw [alignUp?_of_lt h hfits, UInt64.toNat_inj.1 ((isLeast_alignUp h hfits).unique hleast)]

theorem alignUp?_eq_none_iff {least : ℕ}
    (hleast : IsLeast {n : ℕ | alignment.toNat ∣ n ∧ value.toNat ≤ n} least) :
    alignUp? value alignment = none ↔ 2 ^ 64 ≤ least := by
  constructor
  · intro hnone
    by_contra hword
    have hfits := (exists_multiple_iff h).1 ⟨least, Nat.not_le.1 hword, hleast.1⟩
    rw [alignUp?_of_lt h hfits] at hnone
    cases hnone
  · intro hbig
    refine alignUp?_of_le h (Nat.not_lt.1 fun hfits => ?_)
    obtain ⟨n, hword, hn⟩ := (exists_multiple_iff h).2 hfits
    exact Nat.not_le.2 hword (hbig.trans (hleast.2 hn))

/-- The unchecked variant gives zero for zero, and where the checked one gives nothing. -/
theorem alignUp_eq_zero_iff :
    alignUp value alignment = 0 ↔ alignUp? value alignment = none ∨ value = 0 := by
  rcases Nat.lt_or_ge (value.toNat + (alignment.toNat - 1)) (2 ^ 64) with hfits | hbig
  · have hleast := isLeast_alignUp h hfits
    rw [alignUp?_of_lt h hfits, or_iff_right (Option.some_ne_none _)]
    constructor
    · intro hzero
      have hle := hleast.1.2
      rw [hzero] at hle
      exact UInt64.toNat_inj.1 (Nat.le_zero.1 hle)
    · rintro rfl
      exact UInt64.toNat_inj.1 (Nat.le_zero.1 (hleast.2 ⟨Nat.dvd_zero _, Nat.le_refl _⟩))
  · exact iff_of_true (alignUp_of_lt h hbig) (.inl (alignUp?_of_le h hbig))

end

end HostServices.Word

namespace HostServices.Alignment

variable {value alignment : UInt64}

theorem down_of_isPowerOfTwo (h : Word.isPowerOfTwo alignment = true) :
    down value alignment = .ok (Word.alignDown value alignment) := if_pos h

theorem up_of_isPowerOfTwo (h : Word.isPowerOfTwo alignment = true) :
    up value alignment = .ok (Word.alignUp value alignment) := if_pos h

theorem up?_of_isPowerOfTwo (h : Word.isPowerOfTwo alignment = true) :
    up? value alignment = .ok (Word.alignUp? value alignment) := by
  refine if_neg fun hzero => ?_
  have hpos := Word.toNat_pos_of_isPowerOfTwo h
  rw [beq_iff_eq.1 hzero] at hpos
  exact Nat.lt_irrefl 0 hpos

/-- For a power of two, rounding down gives the greatest multiple that is not above. Rounding up with
a check gives the least multiple that is not below if that is a word, and nothing otherwise. Without
a check it gives the same number if there is one, and zero exactly for zero and where there is
none. -/
theorem rounding_exact (value : UInt64) {alignment : UInt64} (h : alignment.toNat.isPowerOfTwo) :
    (∃ lower, down value alignment = .ok lower ∧
      IsGreatest {n : ℕ | alignment.toNat ∣ n ∧ n ≤ value.toNat} lower.toNat) ∧
    ∃ least answer upper, IsLeast {n : ℕ | alignment.toNat ∣ n ∧ value.toNat ≤ n} least ∧
      up? value alignment = .ok answer ∧ up value alignment = .ok upper ∧
      (∀ n, answer = some n ↔ n.toNat = least) ∧ (answer = none ↔ 2 ^ 64 ≤ least) ∧
      (∀ n, answer = some n → upper = n) ∧ (upper = 0 ↔ answer = none ∨ value = 0) := by
  have hpower := Word.isPowerOfTwo_iff.2 h
  have hleast : IsLeast {n : ℕ | alignment.toNat ∣ n ∧ value.toNat ≤ n} _ :=
    Word.isLeast_multiple hpower
  refine ⟨⟨_, down_of_isPowerOfTwo hpower, Word.isGreatest_alignDown hpower⟩, _, _, _, hleast,
    up?_of_isPowerOfTwo hpower, up_of_isPowerOfTwo hpower, fun n => ?_,
    Word.alignUp?_eq_none_iff hpower hleast, fun _ => Word.alignUp_of_alignUp?,
    Word.alignUp_eq_zero_iff hpower⟩
  rw [Word.alignUp?_eq_some_iff hpower]
  exact ⟨fun hn => hn.unique hleast, fun hn => hn ▸ hleast⟩

/-- A byte into the last page. The page behind it would start at the number of words. -/
theorem rounding_exact_lastPage :
    (4096 : UInt64).toNat.isPowerOfTwo ∧
      IsGreatest {n : ℕ | 4096 ∣ n ∧ n ≤ 0xfffffffffffff001} 0xfffffffffffff000 ∧
      up? 0xfffffffffffff001 4096 = .ok none ∧ up 0xfffffffffffff001 4096 = .ok 0 ∧
      ∃ least, IsLeast {n : ℕ | 4096 ∣ n ∧ 0xfffffffffffff001 ≤ n} least ∧ 2 ^ 64 ≤ least := by
  have hpower : (4096 : UInt64).toNat.isPowerOfTwo := ⟨12, by decide⟩
  obtain ⟨⟨lower, hlower, hgreatest⟩, least, answer, upper, hleast, hanswer, hupper, -, hnone, -,
    hzero⟩ := rounding_exact 0xfffffffffffff001 hpower
  obtain rfl : lower = 0xfffffffffffff000 := Except.ok.inj (hlower.symm.trans (by decide))
  obtain rfl : answer = none := Except.ok.inj (hanswer.symm.trans (by decide))
  obtain rfl : upper = 0 := hzero.2 (.inl rfl)
  exact ⟨hpower, hgreatest, hanswer, hupper, least, hleast, hnone.1 rfl⟩

end HostServices.Alignment
