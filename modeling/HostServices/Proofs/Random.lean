import HostServices.Random
import Mathlib.NumberTheory.LucasPrimality
import Mathlib.Tactic.NormNum.Prime
import Mathlib.Tactic.ReduceModChar

/-!
# The period of the generator

Folding takes `2 ^ 31 - 1` away (`toNat_fold`), so a step multiplies by `16807` modulo that
(`step_modEq`, `toNat_step`). The modulus is prime and `16807` generates its units, both by the
powers of `16807` to the quotients of `2 ^ 31 - 2` by its prime factors (`multiplier_pow_ne_one`).
So the generator comes back to its seed after `2 ^ 31 - 2` values, and not before (`full_period`).
-/

namespace HostServices.Random

variable {seed : UInt32}

/-! ## Words as numbers -/

theorem toNat_and_mask (n mask : UInt32) (k : ℕ) (hmask : mask.toNat = 2 ^ k - 1) :
    (n &&& mask).toNat = n.toNat % 2 ^ k := by
  rw [UInt32.toNat_and, hmask, Nat.and_two_pow_sub_one_eq_mod]

theorem toNat_lowProduct (seed : UInt32) :
    (lowProduct seed).toNat = 16807 * (seed.toNat % 2 ^ 16) := by
  rw [lowProduct, UInt32.toNat_mul, toNat_and_mask seed 0xffff 16 rfl]
  exact Nat.mod_eq_of_lt (by simp [multiplier]; omega)

theorem toNat_highHalf (seed : UInt32) : (seed >>> 16).toNat = seed.toNat / 2 ^ 16 := by
  rw [UInt32.toNat_shiftRight]
  exact Nat.shiftRight_eq_div_pow _ 16

theorem toNat_highProduct (seed : UInt32) :
    (highProduct seed).toNat = 16807 * (seed.toNat / 2 ^ 16) := by
  have hlt := seed.toNat_lt
  rw [highProduct, UInt32.toNat_mul, toNat_highHalf]
  exact Nat.mod_eq_of_lt (by simp [multiplier]; omega)

/-- Folding takes the modulus away once from a word above it. -/
theorem toNat_fold (n : UInt32) :
    (fold n).toNat = if 2 ^ 31 - 1 < n.toNat then n.toNat - (2 ^ 31 - 1) else n.toNat := by
  have hlt := n.toNat_lt
  have habove : modulus < n ↔ 2 ^ 31 - 1 < n.toNat := UInt32.lt_iff_toNat_lt
  unfold fold
  by_cases h : 2 ^ 31 - 1 < n.toNat
  · rw [if_pos h, if_pos (habove.2 h), UInt32.toNat_add, toNat_and_mask n modulus 31 rfl]
    simp
    omega
  · rw [if_neg h, if_neg (mt habove.1 h)]

theorem toNat_fold_le {n : UInt32} (hn : n.toNat ≤ 2 * (2 ^ 31 - 1)) :
    (fold n).toNat ≤ 2 ^ 31 - 1 := by
  rw [toNat_fold]
  split <;> omega

/-- What is taken away is no part of the value. -/
theorem fold_modEq (n : UInt32) : (fold n).toNat ≡ n.toNat [MOD 2 ^ 31 - 1] := by
  have hlt := n.toNat_lt
  rw [toNat_fold, Nat.ModEq]
  split <;> omega

/-- The low bits of the high product, where they stand in the whole product. -/
theorem toNat_raised (seed : UInt32) :
    ((highProduct seed &&& 0x7fff) <<< 16).toNat =
      16807 * (seed.toNat / 2 ^ 16) % 2 ^ 15 * 2 ^ 16 := by
  rw [UInt32.toNat_shiftLeft, toNat_and_mask _ 0x7fff 15 rfl, toNat_highProduct]
  show _ <<< 16 % 2 ^ 32 = _
  rw [Nat.shiftLeft_eq]
  omega

theorem toNat_low (seed : UInt32) :
    (lowProduct seed + (highProduct seed &&& 0x7fff) <<< 16).toNat =
      16807 * (seed.toNat % 2 ^ 16) + 16807 * (seed.toNat / 2 ^ 16) % 2 ^ 15 * 2 ^ 16 := by
  rw [UInt32.toNat_add, toNat_lowProduct, toNat_raised]
  omega

theorem toNat_high (seed : UInt32) :
    (highProduct seed >>> 15).toNat = 16807 * (seed.toNat / 2 ^ 16) / 2 ^ 15 := by
  rw [UInt32.toNat_shiftRight, toNat_highProduct]
  exact Nat.shiftRight_eq_div_pow _ 15

/-- The second sum of a step, before it is folded. -/
theorem toNat_sum (seed : UInt32) :
    (fold (lowProduct seed + (highProduct seed &&& 0x7fff) <<< 16) + highProduct seed >>> 15).toNat =
      (fold (lowProduct seed + (highProduct seed &&& 0x7fff) <<< 16)).toNat +
        16807 * (seed.toNat / 2 ^ 16) / 2 ^ 15 := by
  have hlt := seed.toNat_lt
  rw [UInt32.toNat_add, toNat_high, toNat_fold, toNat_low]
  refine Nat.mod_eq_of_lt ?_
  split <;> omega

/-- `2 ^ 31` counts as one, so what a product has above bit 31 is added to the rest of it. -/
theorem product_modEq (low high : ℕ) :
    16807 * (low + 2 ^ 16 * high) ≡
      16807 * low + 16807 * high % 2 ^ 15 * 2 ^ 16 + 16807 * high / 2 ^ 15 [MOD 2 ^ 31 - 1] := by
  generalize hcarry : 16807 * high / 2 ^ 15 = carry
  have hsplit : 16807 * (low + 2 ^ 16 * high) =
      16807 * low + 16807 * high % 2 ^ 15 * 2 ^ 16 + carry + (2 ^ 31 - 1) * carry := by
    omega
  rw [hsplit]
  exact Nat.add_mul_mod_self_left _ _ _

/-- A step multiplies modulo `2 ^ 31 - 1`. -/
theorem step_modEq (seed : UInt32) : (step seed).toNat ≡ 16807 * seed.toNat [MOD 2 ^ 31 - 1] := by
  have hlow := fold_modEq (lowProduct seed + (highProduct seed &&& 0x7fff) <<< 16)
  rw [toNat_low] at hlow
  have hproduct := product_modEq (seed.toNat % 2 ^ 16) (seed.toNat / 2 ^ 16)
  rw [Nat.mod_add_div] at hproduct
  have hfold := fold_modEq
    (fold (lowProduct seed + (highProduct seed &&& 0x7fff) <<< 16) + highProduct seed >>> 15)
  rw [toNat_sum] at hfold
  rw [step]
  exact hfold.trans ((hlow.add_right _).trans hproduct.symm)

/-- The first fold leaves 31 bits. -/
theorem toNat_fold_low_le (seed : UInt32) :
    (fold (lowProduct seed + (highProduct seed &&& 0x7fff) <<< 16)).toNat ≤ 2 ^ 31 - 1 := by
  apply toNat_fold_le
  rw [toNat_low]
  omega

theorem toNat_step_le (seed : UInt32) : (step seed).toNat ≤ 2 ^ 31 - 1 := by
  have hlt := seed.toNat_lt
  have hlow := toNat_fold_low_le seed
  rw [step]
  refine toNat_fold_le ?_
  rw [toNat_sum]
  omega

/-! ## Valid seeds -/

/-- A residue of the modulus other than zero. -/
def Valid (seed : UInt32) : Prop :=
  1 ≤ seed.toNat ∧ seed.toNat ≤ 2 ^ 31 - 2

theorem not_dvd_of_valid (hseed : Valid seed) : ¬2 ^ 31 - 1 ∣ seed.toNat := by
  obtain ⟨hlo, hhi⟩ := hseed
  intro hdvd
  have hle := Nat.le_of_dvd hlo hdvd
  omega

/-- The modulus has no factor in common with the multiplier. -/
theorem valid_step_iff (seed : UInt32) : Valid (step seed) ↔ ¬2 ^ 31 - 1 ∣ seed.toNat := by
  have hcoprime : Nat.Coprime (2 ^ 31 - 1) 16807 := by decide
  have hdvd := (step_modEq seed).dvd_iff (dvd_refl (2 ^ 31 - 1))
  rw [hcoprime.dvd_mul_left] at hdvd
  rw [← hdvd]
  refine ⟨not_dvd_of_valid, fun hnot => ?_⟩
  have hzero : (step seed).toNat ≠ 0 := fun h => hnot (h ▸ dvd_zero _)
  have htop : (step seed).toNat ≠ 2 ^ 31 - 1 := fun h => hnot (h ▸ dvd_rfl)
  have hle := toNat_step_le seed
  exact ⟨by omega, by omega⟩

theorem valid_step (hseed : Valid seed) : Valid (step seed) :=
  (valid_step_iff seed).2 (not_dvd_of_valid hseed)

/-- A step is multiplication modulo `2 ^ 31 - 1`, although no product is formed as a whole. -/
theorem toNat_step (hseed : Valid seed) :
    (step seed).toNat = 16807 * seed.toNat % (2 ^ 31 - 1) := by
  obtain ⟨-, hhi⟩ := valid_step hseed
  have hlt : (step seed).toNat < 2 ^ 31 - 1 := by omega
  exact (Nat.mod_eq_of_lt hlt).symm.trans (step_modEq seed)

theorem valid_skip (r : Random) (hseed : Valid r.seed) (n : ℕ) : Valid (r.skip n).seed := by
  induction n generalizing r with
  | zero => exact hseed
  | succ n ih => exact ih r.next.2 (valid_step hseed)

/-- Two valid seeds that agree modulo the modulus are one. -/
theorem eq_of_cast_eq {seed' : UInt32} (hseed : Valid seed) (hseed' : Valid seed')
    (h : (seed.toNat : ZMod (2 ^ 31 - 1)) = seed'.toNat) : seed = seed' := by
  obtain ⟨hlo, hhi⟩ := hseed
  obtain ⟨hlo', hhi'⟩ := hseed'
  have hmod := (ZMod.natCast_eq_natCast_iff _ _ _).1 h
  exact UInt32.toNat_inj.1 (hmod.eq_of_lt_of_lt (by omega) (by omega))

/-! ## The order of the multiplier -/

theorem prime_dvd_period {q : ℕ} (hq : q.Prime) (hdvd : q ∣ 2 ^ 31 - 2) :
    q ∈ [2, 3, 7, 11, 31, 151, 331] := by
  have hfactors : 2 ^ 31 - 2 = [2, 3, 3, 7, 11, 31, 151, 331].prod := by norm_num
  rw [hfactors, hq.prime.dvd_prod_iff] at hdvd
  obtain ⟨p, hp, hqp⟩ := hdvd
  have hprime : p.Prime := by
    fin_cases hp <;> norm_num
  rw [(Nat.prime_dvd_prime_iff_eq hq hprime).1 hqp]
  fin_cases hp <;> decide

theorem multiplier_pow_period : (16807 : ZMod (2 ^ 31 - 1)) ^ (2 ^ 31 - 2) = 1 := by
  reduce_mod_char

theorem multiplier_pow_ne_one {q : ℕ} (hq : q.Prime) (hdvd : q ∣ 2 ^ 31 - 2) :
    (16807 : ZMod (2 ^ 31 - 1)) ^ ((2 ^ 31 - 2) / q) ≠ 1 := by
  have hmem := prime_dvd_period hq hdvd
  fin_cases hmem <;> (reduce_mod_char; decide)

theorem prime_modulus : Nat.Prime (2 ^ 31 - 1) :=
  lucas_primality _ 16807 multiplier_pow_period fun _ hq hdvd => multiplier_pow_ne_one hq hdvd

theorem orderOf_multiplier : orderOf (16807 : ZMod (2 ^ 31 - 1)) = 2 ^ 31 - 2 :=
  orderOf_eq_of_pow_and_pow_div_prime (by norm_num) multiplier_pow_period
    fun _ hq hdvd => multiplier_pow_ne_one hq hdvd

/-! ## The sequence -/

/-- What call number `n` returns, counted from 0. -/
def value (r : Random) (n : ℕ) : UInt32 :=
  (r.skip n).next.1

theorem seed_skip_succ (r : Random) (n : ℕ) : (r.skip (n + 1)).seed = r.value n := by
  induction n generalizing r with
  | zero => rfl
  | succ n ih => rw [skip, ih, value, value, skip]

theorem values_eq_map (r : Random) (n : ℕ) : r.values n = (List.range n).map r.value := by
  induction n generalizing r with
  | zero => rfl
  | succ n ih =>
    rw [values, ih, List.range_succ_eq_map, List.map_cons, List.map_map]
    rfl

theorem valid_value (r : Random) (hseed : Valid r.seed) (n : ℕ) : Valid (r.value n) := by
  rw [← seed_skip_succ]
  exact valid_skip r hseed (n + 1)

theorem step_cast (seed : UInt32) :
    ((step seed).toNat : ZMod (2 ^ 31 - 1)) = 16807 * seed.toNat := by
  have h := (ZMod.natCast_eq_natCast_iff _ _ _).2 (step_modEq seed)
  rwa [Nat.cast_mul] at h

theorem seed_skip_cast (r : Random) (n : ℕ) :
    ((r.skip n).seed.toNat : ZMod (2 ^ 31 - 1)) = 16807 ^ n * r.seed.toNat := by
  induction n generalizing r with
  | zero => simp [skip]
  | succ n ih =>
    have hnext : (r.next.2.seed.toNat : ZMod (2 ^ 31 - 1)) = 16807 * r.seed.toNat :=
      step_cast r.seed
    rw [skip, ih, hnext, pow_succ (16807 : ZMod (2 ^ 31 - 1)), mul_assoc]

/-- Two generators reached from one valid seed have the same seed just when the numbers of values
taken agree modulo the order of the multiplier. -/
theorem seed_skip_eq_iff (r : Random) (hseed : Valid r.seed) (m n : ℕ) :
    (r.skip m).seed = (r.skip n).seed ↔ m ≡ n [MOD 2 ^ 31 - 2] := by
  have : Fact (Nat.Prime (2 ^ 31 - 1)) := ⟨prime_modulus⟩
  have hne : (r.seed.toNat : ZMod (2 ^ 31 - 1)) ≠ 0 := by
    rw [Ne, ZMod.natCast_eq_zero_iff]
    exact not_dvd_of_valid hseed
  have hcast : (r.skip m).seed = (r.skip n).seed ↔
      (16807 : ZMod (2 ^ 31 - 1)) ^ m * r.seed.toNat = 16807 ^ n * r.seed.toNat := by
    rw [← seed_skip_cast, ← seed_skip_cast]
    exact ⟨fun h => by rw [h],
      eq_of_cast_eq (valid_skip r hseed m) (valid_skip r hseed n)⟩
  have hfinite : IsOfFinOrder (16807 : ZMod (2 ^ 31 - 1)) :=
    isOfFinOrder_iff_pow_eq_one.2 ⟨2 ^ 31 - 2, by norm_num, multiplier_pow_period⟩
  rw [hcast, mul_left_inj' hne, hfinite.pow_eq_pow_iff_modEq, orderOf_multiplier]

theorem value_eq_iff (r : Random) (hseed : Valid r.seed) (m n : ℕ) :
    r.value m = r.value n ↔ m ≡ n [MOD 2 ^ 31 - 2] := by
  rw [← seed_skip_succ, ← seed_skip_succ, seed_skip_eq_iff r hseed]
  exact ⟨Nat.ModEq.add_right_cancel' 1, Nat.ModEq.add_right 1⟩

theorem getLast?_values_succ (r : Random) (n : ℕ) :
    (r.values (n + 1)).getLast? = some (r.value n) := by
  rw [values_eq_map, List.range_succ, List.map_append]
  exact List.getLast?_concat

/-- A whole period ends with the seed it began from. -/
theorem getLast?_values_period (r : Random) (hseed : Valid r.seed) :
    (r.values (2 ^ 31 - 2)).getLast? = some r.seed := by
  have hsucc : 2 ^ 31 - 2 = 2 ^ 31 - 3 + 1 := by norm_num
  have hzero : 2 ^ 31 - 3 + 1 ≡ 0 [MOD 2 ^ 31 - 2] := by
    rw [← hsucc]
    exact Nat.modEq_zero_iff_dvd.2 dvd_rfl
  have hback : r.value (2 ^ 31 - 3) = (r.skip 0).seed := by
    rw [← seed_skip_succ]
    exact (seed_skip_eq_iff r hseed _ _).2 hzero
  rw [hsucc, getLast?_values_succ, hback, skip]

theorem nodup_values_period (r : Random) (hseed : Valid r.seed) :
    (r.values (2 ^ 31 - 2)).Nodup := by
  rw [values_eq_map]
  refine List.Nodup.map_on (fun m hm n hn h => ?_) List.nodup_range
  rw [List.mem_range] at hm hn
  exact ((value_eq_iff r hseed m n).1 h).eq_of_lt_of_lt hm hn

/-- From a valid seed the first `2 ^ 31 - 2` values differ from one another and end with the seed,
every value is valid, and two calls return the same value just when a number of whole periods lies
between them. -/
theorem full_period (r : Random) (hseed : Valid r.seed) :
    (r.values (2 ^ 31 - 2)).Nodup ∧
      (∀ n, ∀ x ∈ r.values n, Valid x) ∧
      (r.values (2 ^ 31 - 2)).getLast? = some r.seed ∧
      ∀ m n, r.value m = r.value n ↔ m ≡ n [MOD 2 ^ 31 - 2] := by
  refine ⟨nodup_values_period r hseed, fun n x hx => ?_, getLast?_values_period r hseed,
    value_eq_iff r hseed⟩
  rw [values_eq_map, List.mem_map] at hx
  obtain ⟨i, -, rfl⟩ := hx
  exact valid_value r hseed i

/-- From the seed that a generator has by default, the first value comes back with the call after
a whole period. -/
theorem full_period_default :
    Valid (Random.mk 1234567).seed ∧ (Random.mk 1234567).value (2 ^ 31 - 2) = step 1234567 := by
  have hseed : Valid (Random.mk 1234567).seed := ⟨by decide, by decide⟩
  have hperiod : 2 ^ 31 - 2 ≡ 0 [MOD 2 ^ 31 - 2] := Nat.modEq_zero_iff_dvd.2 dvd_rfl
  obtain ⟨-, -, -, hagree⟩ := full_period (Random.mk 1234567) hseed
  exact ⟨hseed, (hagree (2 ^ 31 - 2) 0).2 hperiod⟩

end HostServices.Random
