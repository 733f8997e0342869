import HostServices.Proofs.Host.Fresh
import HostServices.Proofs.Memory

/-!
# What a heap relies on for the bytes of blocks

`HostContract` leaves memory open. A host that is `Careful` besides leaves the bytes of all blocks
that it owns alone, refused requests included, and moves those of a block that it resizes as far as
both lengths go. Blocks lie apart, so what is written within one of them is in no other
(`Apart.sameBytes_of_outside`).
-/

namespace HostServices

open Memory (InRange)

namespace Blocks

variable {B : Blocks} {m m' m'' : Memory} {p q n k a : UInt64}

/-- Two memories hold the same bytes in every block. -/
def SameBytes (B : Blocks) (m m' : Memory) : Prop :=
  ∀ ⦃p n⦄, B p = some n → Memory.SameBytes m m' p n.toNat

theorem SameBytes.refl (B : Blocks) (m : Memory) : B.SameBytes m m :=
  fun p n _ => Memory.SameBytes.refl m p n.toNat

theorem SameBytes.trans (h : B.SameBytes m m') (h' : B.SameBytes m' m'') : B.SameBytes m m'' :=
  fun _ _ hp => (h hp).trans (h' hp)

theorem SameBytes.drop (h : B.SameBytes m m') : (B.drop p).SameBytes m m' :=
  fun _ _ hq => h (drop_eq_some_iff.1 hq).2

/-- A block more. -/
theorem SameBytes.of_drop (h : (B.drop p).SameBytes m m') (hp : B p = some n)
    (hsame : Memory.SameBytes m m' p n.toNat) : B.SameBytes m m' := by
  intro q k hq
  by_cases heq : q = p
  · subst heq
    obtain rfl := Option.some.inj (hp.symm.trans hq)
    exact hsame
  · exact h (drop_eq_some_iff.2 ⟨heq, hq⟩)

theorem drop_take_self (h : B p = none) : (B.take p n).drop p = B := by
  funext q
  by_cases hq : q = p
  · rw [hq, drop_self, h]
  · rw [drop_of_ne hq, take_of_ne hq]

/-- No address is in two blocks. -/
theorem Apart.eq_of_inRange (hB : B.Apart) (hp : B p = some n) (hq : B q = some k)
    (ha : InRange p n.toNat a) (ha' : InRange q k.toNat a) : p = q := by
  by_contra hne
  rw [Memory.inRange_iff (hB.fits hp)] at ha
  rw [Memory.inRange_iff (hB.fits hq)] at ha'
  have := hB.beside hp hq hne
  omega

/-- What changes within a block only leaves all others. -/
theorem Apart.sameBytes_of_outside (hB : B.Apart) (hp : B p = some n)
    (h : ∀ a, ¬ InRange p n.toNat a → m' a = m a) : (B.drop p).SameBytes m m' := by
  intro q k hq a ha
  obtain ⟨hne, hq⟩ := drop_eq_some_iff.1 hq
  exact h a fun ha' => hne (hB.eq_of_inRange hq hp ha ha')

/-- What changes within a fresh block only leaves all that were there. -/
theorem Apart.sameBytes_of_fresh (hB : (B.take p n).Apart) (hp : B p = none)
    (h : ∀ a, ¬ InRange p n.toNat a → m' a = m a) : B.SameBytes m m' := by
  have hsame := hB.sameBytes_of_outside take_self h
  rwa [drop_take_self hp] at hsame

end Blocks

/-- A host that leaves the bytes of blocks alone, and takes them along to where it moves a block. -/
structure HostContract.Careful {σ : Type} [HostAllocator σ] (R : HostContract σ) : Prop where
  malloc {n : UInt64} {m : Machine σ} : R.Valid m.host → 0 < n →
    (R.owned m.host).SameBytes m.memory (HostAllocator.malloc n m).2.memory
  unresized {p n k : UInt64} {m m' : Machine σ} : R.Valid m.host → R.owned m.host p = some k →
    0 < n → HostAllocator.realloc p n m = (none, m') →
      (R.owned m.host).SameBytes m.memory m'.memory
  resized {p q n k : UInt64} {m m' : Machine σ} : R.Valid m.host → R.owned m.host p = some k →
    0 < n → HostAllocator.realloc p n m = (some q, m') →
      ((R.owned m.host).drop p).SameBytes m.memory m'.memory ∧
        m'.memory.read q (min k.toNat n.toNat) = m.memory.read p (min k.toNat n.toNat)
  free {p k : UInt64} {m : Machine σ} : R.Valid m.host → R.owned m.host p = some k →
    ((R.owned m.host).drop p).SameBytes m.memory (HostAllocator.free p m).memory

/-! ## The allocator without reuse is careful -/

namespace FreshAllocator

variable {m m' : Machine FreshAllocator} {p q n k : UInt64}

theorem memory_malloc (n : UInt64) (m : Machine FreshAllocator) : (malloc n m).2.memory = m.memory := by
  obtain heq | ⟨next, -, -, heq⟩ := malloc_cases n m <;> rw [heq]

theorem realloc_unresized (hp : m.host.live.get? p = some k) (hcall : realloc p n m = (none, m')) :
    m' = m := by
  unfold realloc at hcall
  rw [hp] at hcall
  obtain heq | ⟨next, -, -, heq⟩ := malloc_cases n m <;> rw [heq] at hcall <;> cases hcall
  rfl

/-- A block that is resized is copied to the next start. -/
theorem memory_realloc (hp : m.host.live.get? p = some k) (hcall : realloc p n m = (some q, m')) :
    q = m.host.next ∧ m'.memory = m.memory.copy p q (Word.min k n) ∧
      ∃ next : UInt64, m.host.next.toNat + n.toNat ≤ next.toNat ∧ next.toNat ≤ 2 ^ 62 := by
  unfold realloc at hcall
  rw [hp] at hcall
  obtain heq | ⟨next, hnext, hle, heq⟩ := malloc_cases n m <;> rw [heq] at hcall <;> cases hcall
  exact ⟨rfl, rfl, next, hnext, hle⟩

theorem realloc_resized (h : m.host.WellFormed) (hp : m.host.live.get? p = some k)
    (hpos : 0 < n) (hcall : realloc p n m = (some q, m')) :
    (Blocks.drop m.host.live.get? p).SameBytes m.memory m'.memory ∧
      m'.memory.read q (min k.toNat n.toNat) = m.memory.read p (min k.toNat n.toNat) := by
  obtain ⟨rfl, hmemory, next, hnext, hle⟩ := memory_realloc hp hcall
  have hB := (h.insert_next hpos hnext hle).apart
  rw [get?_insert_eq] at hB
  have hlength : (Word.min k n).toNat = min k.toNat n.toNat := Word.toNat_min k n
  constructor
  · refine (hB.sameBytes_of_fresh h.get?_next fun a ha => ?_).drop
    rw [hmemory]
    exact Memory.copy_of_not_inRange fun hin => ha (Nat.lt_of_lt_of_le hin (by omega))
  · rw [hmemory]
    exact Memory.read_copy (by omega)

theorem careful_contract : contract.Careful where
  malloc {n m} _ _ := by
    rw [show HostAllocator.malloc n m = malloc n m from rfl, memory_malloc]
    exact .refl ..
  unresized {p n k m m'} _ hp _ hcall := by
    obtain rfl := realloc_unresized hp hcall
    exact .refl ..
  resized h hp hpos hcall := realloc_resized h hp hpos hcall
  free _ _ := .refl ..

end FreshAllocator

end HostServices
