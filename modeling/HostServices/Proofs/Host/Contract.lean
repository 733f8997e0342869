import HostServices.HostAllocator
import Mathlib.Algebra.GroupWithZero.Nat
import Mathlib.Logic.Function.Basic

/-!
# What a heap relies on of its host

A host allocator owns blocks of memory. `HostContract` gives the states that an allocator gets into
and the blocks that it owns in each, and states what a call does to them: a request is answered by
a block without a byte of those that stay, or refused, and refused requests change no block. About
a call on a block that the allocator does not own it states nothing.

The laws are stated for every memory, so they hold whatever was written into blocks.
-/

namespace HostServices

/-- The sizes of blocks of memory, by where the blocks start. -/
abbrev Blocks := UInt64 → Option UInt64

namespace Blocks

variable {B B' kept : Blocks} {p q n k : UInt64}

/-- The blocks with one more. -/
def take (B : Blocks) (p n : UInt64) : Blocks :=
  Function.update B p (some n)

/-- The blocks without the one at `p`. -/
def drop (B : Blocks) (p : UInt64) : Blocks :=
  Function.update B p none

@[simp] theorem take_self : B.take p n p = some n :=
  Function.update_self ..

theorem take_of_ne (h : q ≠ p) : B.take p n q = B q :=
  Function.update_of_ne h ..

@[simp] theorem drop_self : B.drop p p = none :=
  Function.update_self ..

theorem drop_of_ne (h : q ≠ p) : B.drop p q = B q :=
  Function.update_of_ne h ..

theorem take_eq_some_iff : B.take p n q = some k ↔ q = p ∧ k = n ∨ q ≠ p ∧ B q = some k := by
  by_cases h : q = p
  · simp [h, eq_comm]
  · simp [take_of_ne h, h]

theorem drop_eq_some_iff : B.drop p q = some n ↔ q ≠ p ∧ B q = some n := by
  by_cases h : q = p
  · simp [h]
  · simp [drop_of_ne h, h]

theorem drop_eq_none (h : B q = none) : B.drop p q = none := by
  by_cases hq : q = p
  · rw [hq, drop_self]
  · rw [drop_of_ne hq, h]

theorem drop_take (h : q ≠ p) : (B.take p n).drop q = (B.drop q).take p n :=
  Function.update_comm h.symm ..

theorem drop_comm : (B.drop p).drop q = (B.drop q).drop p := by
  by_cases h : p = q
  · rw [h]
  · exact Function.update_comm h ..

/-! ## Blocks beside each other -/

/-- Each block has a byte and lies in memory, and no two share a byte. -/
structure Apart (B : Blocks) : Prop where
  size_pos : ∀ {p n}, B p = some n → 0 < n.toNat
  fits : ∀ {p n}, B p = some n → p.toNat + n.toNat ≤ 2 ^ 64
  beside : ∀ {p n q k}, B p = some n → B q = some k → p ≠ q →
    p.toNat + n.toNat ≤ q.toNat ∨ q.toNat + k.toNat ≤ p.toNat

theorem Apart.drop (h : B.Apart) : (B.drop p).Apart where
  size_pos hn := h.size_pos (drop_eq_some_iff.1 hn).2
  fits hn := h.fits (drop_eq_some_iff.1 hn).2
  beside hn hk := h.beside (drop_eq_some_iff.1 hn).2 (drop_eq_some_iff.1 hk).2

/-- One more block beside all others. -/
theorem Apart.take (h : B.Apart) (hpos : 0 < n.toNat) (hfits : p.toNat + n.toNat ≤ 2 ^ 64)
    (hbeside : ∀ {q k}, B q = some k → q ≠ p →
      p.toNat + n.toNat ≤ q.toNat ∨ q.toNat + k.toNat ≤ p.toNat) : (B.take p n).Apart where
  size_pos hk := by
    obtain ⟨-, rfl⟩ | ⟨-, hk⟩ := take_eq_some_iff.1 hk
    · exact hpos
    · exact h.size_pos hk
  fits hk := by
    obtain ⟨rfl, rfl⟩ | ⟨-, hk⟩ := take_eq_some_iff.1 hk
    · exact hfits
    · exact h.fits hk
  beside hk hl hne := by
    obtain ⟨rfl, rfl⟩ | ⟨hq, hBk⟩ := take_eq_some_iff.1 hk
    · obtain ⟨hr, -⟩ | ⟨hr, hBl⟩ := take_eq_some_iff.1 hl
      · exact absurd hr.symm hne
      · exact hbeside hBl hr
    · obtain ⟨rfl, rfl⟩ | ⟨-, hBl⟩ := take_eq_some_iff.1 hl
      · exact (hbeside hBk hq).symm
      · exact h.beside hBk hBl hne

/-! ## Answers to requests -/

/-- What a request for `n` bytes leaves of the blocks `B` when all but the blocks `kept` may go for
it: none go without an answer, and the answer is the start of no block that stays. -/
def Answered (B kept : Blocks) (n : UInt64) : Option UInt64 → Blocks → Prop
  | none, B' => B' = B
  | some p, B' => kept p = none ∧ B' = kept.take p n

/-- A block that stays is not the answer. -/
theorem Answered.drop {answer : Option UInt64} (h : B.Answered kept n answer B')
    (hq : kept q = some k) : (B.drop q).Answered (kept.drop q) n answer (B'.drop q) := by
  cases answer with
  | none => exact congrArg (·.drop q) h
  | some p =>
    obtain ⟨hp, rfl⟩ := h
    have hne : q ≠ p := by
      rintro rfl
      rw [hq] at hp
      cases hp
    exact ⟨drop_eq_none hp, drop_take hne⟩

/-- A block that stays is there afterwards. -/
theorem Answered.eq_some {answer : Option UInt64} (h : B.Answered kept n answer B')
    (hB : B q = some k) (hq : kept q = some k) : B' q = some k := by
  cases answer with
  | none => exact (show B' = B from h) ▸ hB
  | some p =>
    obtain ⟨hp, rfl⟩ := h
    have hne : q ≠ p := by
      rintro rfl
      rw [hq] at hp
      cases hp
    rw [take_of_ne hne, hq]

end Blocks

/-- The states that a host allocator gets into, the blocks that it owns in each, and how calls
change them. -/
structure HostContract (σ : Type) [HostAllocator σ] where
  Valid : σ → Prop
  owned : σ → Blocks
  apart {s : σ} : Valid s → (owned s).Apart
  malloc {n : UInt64} {m : Machine σ} : Valid m.host → 0 < n →
    Valid (HostAllocator.malloc n m).2.host ∧
      (owned m.host).Answered (owned m.host) n (HostAllocator.malloc n m).1
        (owned (HostAllocator.malloc n m).2.host)
  /-- The block that is resized goes for the answer, so the answer may start where it did. -/
  realloc {p n k : UInt64} {m : Machine σ} : Valid m.host → owned m.host p = some k → 0 < n →
    Valid (HostAllocator.realloc p n m).2.host ∧
      (owned m.host).Answered ((owned m.host).drop p) n (HostAllocator.realloc p n m).1
        (owned (HostAllocator.realloc p n m).2.host)
  free {p k : UInt64} {m : Machine σ} : Valid m.host → owned m.host p = some k →
    Valid (HostAllocator.free p m).host ∧
      owned (HostAllocator.free p m).host = (owned m.host).drop p

/-! ## What a call leaves -/

namespace HostContract

variable {σ : Type} [HostAllocator σ] (R : HostContract σ) {s : σ} {m m' : Machine σ}
  {answer : Option UInt64} {p n : UInt64} (hvalid : R.Valid s) (hm : m.host = s)
include hvalid hm

theorem of_malloc (hn : 0 < n) (hcall : HostAllocator.malloc n m = (answer, m')) :
    R.Valid m'.host ∧ (R.owned s).Answered (R.owned s) n answer (R.owned m'.host) := by
  subst hm
  have h := R.malloc hvalid hn
  rwa [hcall] at h

theorem of_realloc (hp : R.owned s p ≠ none) (hn : 0 < n)
    (hcall : HostAllocator.realloc p n m = (answer, m')) :
    R.Valid m'.host ∧ (R.owned s).Answered ((R.owned s).drop p) n answer (R.owned m'.host) := by
  subst hm
  obtain ⟨k, hk⟩ := Option.ne_none_iff_exists'.1 hp
  have h := R.realloc hvalid hk hn
  rwa [hcall] at h

theorem of_free (hp : R.owned s p ≠ none) :
    R.Valid (HostAllocator.free p m).host ∧
      R.owned (HostAllocator.free p m).host = (R.owned s).drop p := by
  subst hm
  obtain ⟨k, hk⟩ := Option.ne_none_iff_exists'.1 hp
  exact R.free hvalid hk

end HostContract

end HostServices
