import HostServices.Proofs.Random

/-!
# A step within 32 bits

A step of the generator works on words of 32 bits, and these wrap. `step?` is a step that does not:
each of its products, sums and shifts has to be a word. It never fails, from any seed (`step?_eq`):
both products and the first sum stay below `2 ^ 32`, and a folded sum is at most `2 ^ 31 - 1`, so
that there is room for the carry that is added to it. Hence a step is multiplication by `16807` modulo
`2 ^ 31 - 1` with nothing lost on the way (`step_exact`).
-/

namespace HostServices.Random

/-! ## Operations that do not wrap -/

/-- `a + b`, when that is a word. -/
def add? (a b : UInt32) : Option UInt32 :=
  if a.toNat + b.toNat < UInt32.size then some (a + b) else none

/-- `a * b`, when that is a word. -/
def mul? (a b : UInt32) : Option UInt32 :=
  if a.toNat * b.toNat < UInt32.size then some (a * b) else none

/-- `a` moved up by `bits` bits, when none that is set leaves the word. -/
def shiftLeft? (a bits : UInt32) : Option UInt32 :=
  if a.toNat * 2 ^ bits.toNat < UInt32.size then some (a <<< bits) else none

/-- `fold`, with a sum that must be a word. -/
def fold? (n : UInt32) : Option UInt32 :=
  if modulus < n then add? (n &&& modulus) 1 else some n

/-- `step`, with products, sums and a shift that must be words. -/
def step? (seed : UInt32) : Option UInt32 := do
  let low ← mul? multiplier (seed &&& 0xffff)
  let high ← mul? multiplier (seed >>> 16)
  let raised ← shiftLeft? (high &&& 0x7fff) 16
  let first ← fold? (← add? low raised)
  fold? (← add? first (high >>> 15))

/-! ## None of them fails -/

theorem mul?_low (seed : UInt32) : mul? multiplier (seed &&& 0xffff) = some (lowProduct seed) := by
  have hlow := toNat_and_mask seed 0xffff 16 rfl
  apply if_pos
  show 16807 * _ < 2 ^ 32
  omega

theorem mul?_high (seed : UInt32) : mul? multiplier (seed >>> 16) = some (highProduct seed) := by
  have hlt := seed.toNat_lt
  have hhigh := toNat_highHalf seed
  apply if_pos
  show 16807 * _ < 2 ^ 32
  omega

theorem shiftLeft?_masked (n : UInt32) :
    shiftLeft? (n &&& 0x7fff) 16 = some ((n &&& 0x7fff) <<< 16) := by
  have hlow := toNat_and_mask n 0x7fff 15 rfl
  apply if_pos
  show _ * 2 ^ 16 < 2 ^ 32
  omega

/-- A fold adds to a word without its top bit. -/
theorem fold?_eq (n : UInt32) : fold? n = some (fold n) := by
  have hmasked := toNat_and_mask n modulus 31 rfl
  unfold fold? fold
  split
  · apply if_pos
    show _ + 1 < 2 ^ 32
    omega
  · rfl

theorem add?_low (seed : UInt32) :
    add? (lowProduct seed) ((highProduct seed &&& 0x7fff) <<< 16) =
      some (lowProduct seed + (highProduct seed &&& 0x7fff) <<< 16) := by
  apply if_pos
  show _ < 2 ^ 32
  rw [toNat_lowProduct, toNat_raised]
  omega

/-- The folded sum has 31 bits, and the carry fewer. -/
theorem add?_high (seed : UInt32) :
    add? (fold (lowProduct seed + (highProduct seed &&& 0x7fff) <<< 16)) (highProduct seed >>> 15) =
      some (fold (lowProduct seed + (highProduct seed &&& 0x7fff) <<< 16) +
        highProduct seed >>> 15) := by
  have hlt := seed.toNat_lt
  have hlow := toNat_fold_low_le seed
  apply if_pos
  show _ < 2 ^ 32
  rw [toNat_high]
  omega

theorem step?_eq (seed : UInt32) : step? seed = some (step seed) := by
  simp only [step?, step, mul?_low, mul?_high, shiftLeft?_masked, add?_low, add?_high, fold?_eq,
    Option.bind_eq_bind, Option.bind_some]

/-- From any seed, no product, sum or shift of a step leaves 32 bits. The step multiplies by `16807`
modulo `2 ^ 31 - 1` and gives at most that modulus, and neither 0 nor the modulus exactly when the
seed is no multiple of it. For a seed between 0 and the modulus it gives the residue itself. -/
theorem step_exact (seed : UInt32) :
    step? seed = some (step seed) ∧ (step seed).toNat ≤ 2 ^ 31 - 1 ∧
      (step seed).toNat ≡ 16807 * seed.toNat [MOD 2 ^ 31 - 1] ∧
      ((step seed).toNat ≠ 0 ∧ (step seed).toNat ≠ 2 ^ 31 - 1 ↔ ¬2 ^ 31 - 1 ∣ seed.toNat) ∧
      (1 ≤ seed.toNat ∧ seed.toNat ≤ 2 ^ 31 - 2 →
        (step seed).toNat = 16807 * seed.toNat % (2 ^ 31 - 1)) := by
  refine ⟨step?_eq seed, toNat_step_le seed, step_modEq seed, ?_, fun hseed => toNat_step hseed⟩
  have hle := toNat_step_le seed
  rw [← valid_step_iff, Valid]
  omega

/-- The largest seed below the modulus. -/
theorem step_exact_belowModulus :
    step? 0x7ffffffe = some (step 0x7ffffffe) ∧
      (step 0x7ffffffe).toNat = 16807 * (2 ^ 31 - 2) % (2 ^ 31 - 1) := by
  obtain ⟨hwords, -, -, -, hresidue⟩ := step_exact 0x7ffffffe
  exact ⟨hwords, hresidue ⟨by decide, by decide⟩⟩

end HostServices.Random
