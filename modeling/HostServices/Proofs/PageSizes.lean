import HostServices.PageSizes
import HostServices.Proofs.Alignment
import HostServices.Proofs.Checked
import Mathlib.Data.Set.Basic

/-!
# Page sizes as a set

Bit `k` of a mask stands for the size `2 ^ k`, so the operations on masks are those on sets
(`mem_and`, `mem_or`, `mem_not`), a power of two is the set of itself (`mem_mk_self`), and one less is
the set of all smaller ones (`mem_sub_one`). The members of a set are the sizes that calls of `add`
put into it (`Built.mem_iff`). A size counts as contained if it shares a bit with one of them, which
is membership for powers of two and for those sizes alone that share no bit (`contains_exact_iff`).
-/

namespace HostServices.PageSizes

variable {p q : PageSizes} {size t : UInt64}

/-- Bit `k` of the mask stands for the size `2 ^ k`. -/
instance : Membership UInt64 PageSizes where
  mem p size := ∃ k, size.toNat = 2 ^ k ∧ p.mask.toNat.testBit k = true

/-! ## Masks as sets -/

theorem mem_mk_iff {mask : UInt64} {k : ℕ} (hk : t.toNat = 2 ^ k) :
    t ∈ mk mask ↔ mask.toNat.testBit k = true := by
  constructor
  · rintro ⟨j, hj, hbit⟩
    obtain rfl := Nat.pow_right_injective le_rfl (hj.symm.trans hk)
    exact hbit
  · exact fun hbit => ⟨k, hk, hbit⟩

theorem isPowerOfTwo_of_mem (h : t ∈ p) : Word.isPowerOfTwo t = true := by
  obtain ⟨k, hk, -⟩ := h
  exact Word.isPowerOfTwo_iff.2 ⟨k, hk⟩

theorem ne_zero_of_mem (h : t ∈ p) : t ≠ 0 := by
  rintro rfl
  exact absurd (isPowerOfTwo_of_mem h) (by decide)

theorem mem_and {a b : UInt64} : t ∈ mk (a &&& b) ↔ t ∈ mk a ∧ t ∈ mk b := by
  constructor
  · rintro ⟨k, hk, hbit⟩
    rw [UInt64.toNat_and, Nat.testBit_and, Bool.and_eq_true] at hbit
    exact ⟨⟨k, hk, hbit.1⟩, ⟨k, hk, hbit.2⟩⟩
  · rintro ⟨⟨k, hk, ha⟩, hb⟩
    rw [mem_mk_iff hk] at hb ⊢
    rw [UInt64.toNat_and, Nat.testBit_and, ha, hb, Bool.and_self]

theorem mem_or {a b : UInt64} : t ∈ mk (a ||| b) ↔ t ∈ mk a ∨ t ∈ mk b := by
  constructor
  · rintro ⟨k, hk, hbit⟩
    rw [UInt64.toNat_or, Nat.testBit_or, Bool.or_eq_true] at hbit
    exact hbit.imp (⟨k, hk, ·⟩) (⟨k, hk, ·⟩)
  · rintro (⟨k, hk, hbit⟩ | ⟨k, hk, hbit⟩)
    · exact ⟨k, hk, by rw [UInt64.toNat_or, Nat.testBit_or, hbit, Bool.true_or]⟩
    · exact ⟨k, hk, by rw [UInt64.toNat_or, Nat.testBit_or, hbit, Bool.or_true]⟩

theorem mem_not {a : UInt64} (h : Word.isPowerOfTwo t = true) : t ∈ mk (~~~a) ↔ t ∉ mk a := by
  obtain ⟨k, hk⟩ := Word.isPowerOfTwo_iff.1 h
  have hlt : k < 64 := (Nat.pow_lt_pow_iff_right (by decide)).1 (hk ▸ t.toNat_lt)
  rw [mem_mk_iff hk, mem_mk_iff hk, Word.testBit_not, decide_eq_true hlt, Bool.true_and,
    Bool.not_eq_true', Bool.not_eq_true]

/-- A power of two has one bit. -/
theorem mem_mk_self (h : Word.isPowerOfTwo size = true) : t ∈ mk size ↔ t = size := by
  obtain ⟨k, hk⟩ := Word.isPowerOfTwo_iff.1 h
  constructor
  · rintro ⟨j, hj, hbit⟩
    rw [hk, Nat.testBit_two_pow, decide_eq_true_iff] at hbit
    exact UInt64.toNat_inj.1 (by rw [hj, hk, hbit])
  · rintro rfl
    exact ⟨k, hk, by rw [hk, Nat.testBit_two_pow_self]⟩

/-- The bits below a power of two are the smaller ones. -/
theorem mem_sub_one (h : Word.isPowerOfTwo size = true) (ht : Word.isPowerOfTwo t = true) :
    t ∈ mk (size - 1) ↔ t < size := by
  obtain ⟨k, hk⟩ := Word.isPowerOfTwo_iff.1 h
  obtain ⟨j, hj⟩ := Word.isPowerOfTwo_iff.1 ht
  have hbelow : (size - 1).toNat = 2 ^ k - 1 := by
    rw [Word.toNat_sub_one (Word.toNat_pos_of_isPowerOfTwo h).ne', hk]
  rw [mem_mk_iff hj, hbelow, Nat.testBit_two_pow_sub_one, decide_eq_true_iff,
    UInt64.lt_iff_toNat_lt, hj, hk, Nat.pow_lt_pow_iff_right (by decide)]

theorem ne_zero_iff {mask : UInt64} : mask ≠ 0 ↔ ∃ t, t ∈ mk mask := by
  constructor
  · intro h
    obtain ⟨k, hbit⟩ := Nat.exists_testBit_of_ne_zero (Word.toNat_ne_zero h)
    have hk : (UInt64.ofNat (2 ^ k)).toNat = 2 ^ k :=
      Nat.mod_eq_of_lt (Nat.pow_lt_pow_right (by decide) (Word.lt_of_testBit hbit))
    exact ⟨_, k, hk, hbit⟩
  · rintro ⟨t, k, -, hbit⟩ rfl
    rw [UInt64.toNat_zero, Nat.zero_testBit] at hbit
    cases hbit

theorem not_mem_zero : t ∉ mk 0 := fun h => ne_zero_iff.2 ⟨t, h⟩ rfl

/-! ## Adding sizes -/

theorem isPowerOfTwo_of_add (h : p.add size = .ok q) : Word.isPowerOfTwo size = true := by
  by_contra hnot
  rw [add, if_neg hnot] at h
  cases h

theorem mem_add (h : p.add size = .ok q) : t ∈ q ↔ t ∈ p ∨ t = size := by
  have hpower := isPowerOfTwo_of_add h
  rw [add, if_pos hpower] at h
  obtain rfl := Except.ok.inj h
  rw [mem_or, mem_mk_self hpower]

/-- The sizes that calls of `add` added, and the set after them. A refused call adds none. -/
inductive Built : List UInt64 → PageSizes → Prop
  | empty : Built [] {}
  | added {sizes : List UInt64} {p q : PageSizes} {size : UInt64} :
      Built sizes p → p.add size = .ok q → Built (sizes ++ [size]) q
  | refused {sizes : List UInt64} {p : PageSizes} {size : UInt64} {fault : Fault} :
      Built sizes p → p.add size = .error fault → Built sizes p

namespace Built

variable {sizes : List UInt64}

/-- The members are the sizes that were added. -/
theorem mem_iff (h : Built sizes p) : t ∈ p ↔ t ∈ sizes := by
  induction h with
  | empty => exact iff_of_false not_mem_zero List.not_mem_nil
  | added _ hadd ih => rw [mem_add hadd, ih, List.mem_append, List.mem_singleton]
  | refused _ _ ih => exact ih

theorem isPowerOfTwo (h : Built sizes p) (ht : t ∈ sizes) : Word.isPowerOfTwo t = true :=
  isPowerOfTwo_of_mem (h.mem_iff.2 ht)

theorem of_foldlM {more : List UInt64} (h : Built sizes p) (hmore : more.foldlM add p = .ok q) :
    Built (sizes ++ more) q := by
  induction more generalizing sizes p with
  | nil =>
    obtain rfl := Except.ok.inj hmore
    rw [List.append_nil]
    exact h
  | cons size more ih =>
    obtain ⟨r, hadd, hrest⟩ := Checked.bind_eq_ok_iff.1 hmore
    rw [← List.singleton_append, ← List.append_assoc]
    exact ih (h.added hadd) hrest

theorem of_ofList (h : ofList sizes = .ok p) : Built sizes p :=
  empty.of_foldlM h

end Built

/-! ## Asking for sizes -/

/-- A size is asked for by its bits. -/
theorem contains_iff : p.contains size = true ↔ ∃ t ∈ p, t ∈ mk size := by
  rw [contains, bne_iff_ne, ne_zero_iff]
  simp only [mem_and]

theorem contains_iff_mem (h : Word.isPowerOfTwo size = true) :
    p.contains size = true ↔ size ∈ p := by
  rw [contains_iff]
  simp only [mem_mk_self h, exists_eq_right]

theorem mem_mk_iff_and (h : Word.isPowerOfTwo t = true) : t ∈ mk size ↔ t &&& size ≠ 0 := by
  rw [ne_zero_iff]
  simp only [mem_and, mem_mk_self h, exists_eq_left]

/-- A size counts as contained if it shares a bit with a size that was added. So the answer is right
if and only if the size is a power of two or shares no bit with them. -/
theorem contains_exact_iff {sizes : List UInt64} (h : Built sizes p) (size : UInt64) :
    (p.contains size = true ↔ ∃ t ∈ sizes, t &&& size ≠ 0) ∧
      ((p.contains size = true ↔ size ∈ sizes) ↔
        Word.isPowerOfTwo size = true ∨ ∀ t ∈ sizes, t &&& size = 0) := by
  have hshared : p.contains size = true ↔ ∃ t ∈ sizes, t &&& size ≠ 0 := by
    rw [contains_iff]
    simp only [h.mem_iff]
    exact exists_congr fun t => and_congr_right fun ht => mem_mk_iff_and (h.isPowerOfTwo ht)
  refine ⟨hshared, ?_⟩
  by_cases hpower : Word.isPowerOfTwo size = true
  · exact iff_of_true ((contains_iff_mem hpower).trans h.mem_iff) (.inl hpower)
  · have hnot : size ∉ sizes := fun hmem => hpower (h.isPowerOfTwo hmem)
    rw [iff_false_right hnot, hshared, or_iff_right hpower]
    simp only [ne_eq, not_exists, not_and, not_not]

/-- Pages of 4 KiB alone. -/
def fourKib : PageSizes := ⟨4096⟩

theorem built_fourKib : Built [4096] fourKib := .added .empty rfl

/-- Six times as large a size is no power of two, but shares no bit with the only member. -/
theorem contains_exact_iff_sixfold :
    Built [4096] fourKib ∧ (fourKib.contains 24576 = true ↔ 24576 ∈ [(4096 : UInt64)]) := by
  obtain ⟨-, hexact⟩ := contains_exact_iff built_fourKib 24576
  have hnone : (4096 : UInt64) &&& 24576 = 0 := by decide
  exact ⟨built_fourKib, hexact.2 (.inr (List.forall_mem_singleton.2 hnone))⟩

/-- Three times as large a size was not added either, but shares the bit. -/
theorem threefold_contained :
    Built [4096] fourKib ∧ ¬(fourKib.contains 12288 = true ↔ 12288 ∈ [(4096 : UInt64)]) :=
  ⟨built_fourKib, by decide⟩

end HostServices.PageSizes
