import HostServices.Proofs.Host.Fresh

/-!
# Hosts that answer alike

Two hosts are twins if what one answers the other does too, whatever memory holds on either side. They
own the same blocks then, but need not put the same bytes into fresh ones.
-/

namespace HostServices

/-- The states that two hosts get into together. -/
structure HostTwins {σ τ : Type} [HostAllocator σ] [HostAllocator τ] (R : HostContract σ)
    (Q : HostContract τ) where
  Alike : σ → τ → Prop
  valid {s : σ} {t : τ} : Alike s t → R.Valid s ∧ Q.Valid t
  owned {s : σ} {t : τ} : Alike s t → Q.owned t = R.owned s
  malloc {n : UInt64} {m : Machine σ} {m' : Machine τ} : Alike m.host m'.host → 0 < n →
    (HostAllocator.malloc n m').1 = (HostAllocator.malloc n m).1 ∧
      Alike (HostAllocator.malloc n m).2.host (HostAllocator.malloc n m').2.host
  realloc {p n k : UInt64} {m : Machine σ} {m' : Machine τ} : Alike m.host m'.host →
    R.owned m.host p = some k → 0 < n →
      (HostAllocator.realloc p n m').1 = (HostAllocator.realloc p n m).1 ∧
        Alike (HostAllocator.realloc p n m).2.host (HostAllocator.realloc p n m').2.host
  free {p k : UInt64} {m : Machine σ} {m' : Machine τ} : Alike m.host m'.host →
    R.owned m.host p = some k →
      Alike (HostAllocator.free p m).host (HostAllocator.free p m').host

namespace HostTwins

variable {σ τ : Type} [HostAllocator σ] [HostAllocator τ] {R : HostContract σ} {Q : HostContract τ}
  (T : HostTwins R Q) {m m₁ : Machine σ} {m' : Machine τ} {p n k : UInt64} {answer : Option UInt64}
  (halike : T.Alike m.host m'.host)
include halike

/-- What one host answers to a request, the other answers. -/
theorem of_malloc (hn : 0 < n) (hcall : HostAllocator.malloc n m = (answer, m₁)) :
    ∃ m₁', HostAllocator.malloc n m' = (answer, m₁') ∧ T.Alike m₁.host m₁'.host := by
  obtain ⟨hanswer, halike'⟩ := T.malloc halike hn
  rw [hcall] at hanswer halike'
  exact ⟨_, Prod.ext hanswer rfl, halike'⟩

theorem of_realloc (hp : R.owned m.host p = some k) (hn : 0 < n)
    (hcall : HostAllocator.realloc p n m = (answer, m₁)) :
    ∃ m₁', HostAllocator.realloc p n m' = (answer, m₁') ∧ T.Alike m₁.host m₁'.host := by
  obtain ⟨hanswer, halike'⟩ := T.realloc halike hp hn
  rw [hcall] at hanswer halike'
  exact ⟨_, Prod.ext hanswer rfl, halike'⟩

end HostTwins

/-! ## The allocator without reuse and itself -/

namespace FreshAllocator

variable {s : FreshAllocator} {mem mem' : Memory} {p : UInt64}

theorem malloc_alike (n : UInt64) (s : FreshAllocator) (mem mem' : Memory) :
    (malloc n ⟨s, mem'⟩).1 = (malloc n ⟨s, mem⟩).1 ∧
      (malloc n ⟨s, mem'⟩).2.host = (malloc n ⟨s, mem⟩).2.host := by
  unfold malloc
  dsimp only
  split <;> exact ⟨rfl, rfl⟩

theorem realloc_alike (p n : UInt64) (s : FreshAllocator) (mem mem' : Memory) :
    (realloc p n ⟨s, mem'⟩).1 = (realloc p n ⟨s, mem⟩).1 ∧
      (realloc p n ⟨s, mem'⟩).2.host = (realloc p n ⟨s, mem⟩).2.host := by
  unfold realloc malloc
  dsimp only
  cases s.live.get? p with
  | none => exact ⟨rfl, rfl⟩
  | some k =>
    dsimp only
    by_cases hlarge : largest < n ∨ 1 <<< 62 < s.next.toNat + (n.toNat / 16 + 1) * 16
    · rw [if_pos hlarge, if_pos hlarge]
      exact ⟨rfl, rfl⟩
    · rw [if_neg hlarge, if_neg hlarge]
      exact ⟨rfl, rfl⟩

/-- The allocator answers by its own state. -/
def twins : HostTwins contract contract where
  Alike s t := s.WellFormed ∧ t = s
  valid := by
    rintro s _ ⟨hs, rfl⟩
    exact ⟨hs, hs⟩
  owned := by
    rintro s _ ⟨-, rfl⟩
    rfl
  malloc := by
    rintro n ⟨s, mem⟩ ⟨_, mem'⟩ ⟨hs, rfl⟩ hn
    obtain ⟨hanswer, hhost⟩ := malloc_alike n _ mem mem'
    exact ⟨hanswer, (contract.malloc hs hn).1, hhost⟩
  realloc := by
    rintro p n k ⟨s, mem⟩ ⟨_, mem'⟩ ⟨hs, rfl⟩ hp hn
    obtain ⟨hanswer, hhost⟩ := realloc_alike p n _ mem mem'
    exact ⟨hanswer, (contract.realloc hs hp hn).1, hhost⟩
  free := by
    rintro p k ⟨s, mem⟩ ⟨_, mem'⟩ ⟨hs, rfl⟩ hp
    exact ⟨(contract.free hs hp).1, rfl⟩

end FreshAllocator

end HostServices
