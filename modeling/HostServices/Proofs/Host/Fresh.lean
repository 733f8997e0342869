import HostServices.FreshAllocator
import HostServices.Proofs.Host.Contract

/-!
# The allocator without reuse keeps the contract

Its blocks end where the next one starts, at the latest.
-/

namespace HostServices.FreshAllocator

open Blocks

/-- The blocks are apart and behind none of them is another, and the next start is far from the
top. -/
structure WellFormed (s : FreshAllocator) : Prop where
  apart : Apart s.live.get?
  before_next : ∀ {p n}, s.live.get? p = some n → p.toNat + n.toNat ≤ s.next.toNat
  next_le : s.next.toNat ≤ 2 ^ 62

theorem wellFormed_empty : WellFormed {} where
  apart := ⟨fun h => (nomatch h), fun h => (nomatch h), fun h => (nomatch h)⟩
  before_next h := nomatch h
  next_le := by decide

variable {s : FreshAllocator} {m m' : Machine FreshAllocator} {p q n k : UInt64}

theorem get?_insert_eq (live : AddressMap UInt64) : (live.insert p n).get? = take live.get? p n := by
  funext q
  rw [AddressMap.get?_insert]
  by_cases h : p = q
  · rw [if_pos h, ← h, take_self]
  · rw [if_neg h, take_of_ne (Ne.symm h)]

theorem get?_erase_eq (live : AddressMap UInt64) : (live.erase p).get? = drop live.get? p := by
  funext q
  rw [AddressMap.get?_erase]
  by_cases h : p = q
  · rw [if_pos h, ← h, drop_self]
  · rw [if_neg h, drop_of_ne (Ne.symm h)]

/-- The next start is no block's. -/
theorem WellFormed.get?_next (h : s.WellFormed) : s.live.get? s.next = none := by
  cases hn : s.live.get? s.next with
  | none => rfl
  | some n =>
    have := h.apart.size_pos hn
    have := h.before_next hn
    omega

theorem WellFormed.erase (h : s.WellFormed) (p : UInt64) :
    WellFormed { s with live := s.live.erase p } where
  apart := by
    rw [get?_erase_eq]
    exact h.apart.drop
  before_next {q n} hq := by
    rw [get?_erase_eq] at hq
    exact h.before_next (drop_eq_some_iff.1 hq).2
  next_le := h.next_le

/-- What `malloc` answers, and what it leaves. -/
theorem malloc_cases (n : UInt64) (m : Machine FreshAllocator) :
    malloc n m = (none, m) ∨
      ∃ next : UInt64, m.host.next.toNat + n.toNat ≤ next.toNat ∧ next.toNat ≤ 2 ^ 62 ∧
        malloc n m = (some m.host.next,
          { m with host := { live := m.host.live.insert m.host.next n, next } }) := by
  unfold malloc
  dsimp only
  split
  · exact .inl rfl
  · rename_i h
    rw [not_or, Nat.not_lt] at h
    refine .inr ⟨_, ?_, ?_, rfl⟩ <;> rw [UInt64.toNat_ofNat_of_lt' (Nat.lt_of_le_of_lt h.2 (by decide))]
    · omega
    · exact h.2

theorem WellFormed.insert_next (h : s.WellFormed) {next : UInt64} (hpos : 0 < n)
    (hnext : s.next.toNat + n.toNat ≤ next.toNat) (hle : next.toNat ≤ 2 ^ 62) :
    WellFormed { live := s.live.insert s.next n, next } where
  apart := by
    rw [get?_insert_eq]
    exact h.apart.take (UInt64.lt_iff_toNat_lt.1 hpos) (by omega) fun hq _ => .inr (h.before_next hq)
  before_next {q k} hq := by
    rw [get?_insert_eq] at hq
    show q.toNat + k.toNat ≤ next.toNat
    obtain ⟨rfl, rfl⟩ | ⟨-, hq⟩ := take_eq_some_iff.1 hq
    · exact hnext
    · have := h.before_next hq
      omega
  next_le := hle

theorem WellFormed.malloc (h : m.host.WellFormed) (hpos : 0 < n) :
    (malloc n m).2.host.WellFormed ∧
      Answered m.host.live.get? m.host.live.get? n (malloc n m).1 (malloc n m).2.host.live.get? := by
  obtain heq | ⟨next, hnext, hle, heq⟩ := malloc_cases n m <;> rw [heq]
  · exact ⟨h, rfl⟩
  · exact ⟨h.insert_next hpos hnext hle, h.get?_next, get?_insert_eq _⟩

theorem WellFormed.realloc (h : m.host.WellFormed) (hp : m.host.live.get? p = some k)
    (hpos : 0 < n) :
    (realloc p n m).2.host.WellFormed ∧
      Answered m.host.live.get? (drop m.host.live.get? p) n (realloc p n m).1
        (realloc p n m).2.host.live.get? := by
  have hne : p ≠ m.host.next := by
    rintro rfl
    rw [h.get?_next] at hp
    cases hp
  unfold FreshAllocator.realloc
  rw [hp]
  dsimp only
  obtain heq | ⟨next, hnext, hle, heq⟩ := malloc_cases n m <;> rw [heq]
  · exact ⟨h, rfl⟩
  · refine ⟨(h.insert_next hpos hnext hle).erase p, drop_eq_none h.get?_next, ?_⟩
    show ((m.host.live.insert m.host.next n).erase p).get? = _
    rw [get?_erase_eq, get?_insert_eq, drop_take hne]

/-- The allocator as a host. -/
def contract : HostContract FreshAllocator where
  Valid := WellFormed
  owned s := s.live.get?
  apart h := h.apart
  malloc h hpos := h.malloc hpos
  realloc h hp hpos := h.realloc hp hpos
  free {p _ m} h _ := ⟨h.erase p, get?_erase_eq m.host.live⟩

end HostServices.FreshAllocator
