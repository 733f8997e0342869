import HostServices.Proofs.Host.Contract
import Mathlib.Data.Set.Insert

/-!
# A host whose calls are written down

`Journal` passes every call on and writes it down with its answer. A journal is lawful when each
call that takes a block, to free or to resize it, takes one that the host answered and that was not
taken since. `HostContract.journal` holds an allocator to that: its blocks are those that the
journal shows to be outstanding. `HostContract.withholding` keeps one of them from all calls.
-/

namespace HostServices

/-- A call of a host allocator, and its answer. -/
inductive HostCall
  | malloc (n : UInt64) (answer : Option UInt64)
  | realloc (p n : UInt64) (answer : Option UInt64)
  | free (p : UInt64)

namespace HostCall

/-- The block that a call frees or resizes. -/
def takes? : HostCall → Option UInt64
  | malloc .. => none
  | realloc p _ _ => some p
  | free p => some p

/-- The block that a call hands out. -/
def answer? : HostCall → Option UInt64
  | malloc _ answer => answer
  | realloc _ _ answer => answer
  | free _ => none

/-- The blocks that are out after a request, when `S` were out before and `kept` stay for certain. -/
def granted (S kept : Set UInt64) : Option UInt64 → Set UInt64
  | none => S
  | some q => insert q kept

/-- The blocks that are out after a call, when `S` were before. A resize that is refused leaves its
block out. -/
def leaves (S : Set UInt64) : HostCall → Set UInt64
  | malloc _ answer => granted S S answer
  | realloc p _ answer => granted S (S \ {p}) answer
  | free p => S \ {p}

/-- The blocks that are out after some calls, the latest first. -/
def outstanding : List HostCall → Set UInt64
  | [] => ∅
  | call :: earlier => call.leaves (outstanding earlier)

/-- Each call takes only a block that is out. -/
def Lawful : List HostCall → Prop
  | [] => True
  | call :: earlier => (∀ p, call.takes? = some p → p ∈ outstanding earlier) ∧ Lawful earlier

variable {call : HostCall} {calls earlier mid : List HostCall} {p : UInt64} {S : Set UInt64}

theorem mem_or_granted {kept : Set UInt64} {answer : Option UInt64} (hkept : kept ⊆ S)
    (h : p ∈ granted S kept answer) : p ∈ S ∨ answer = some p := by
  cases answer with
  | none => exact .inl h
  | some q => exact h.symm.imp (@hkept p) fun hq => congrArg some hq.symm

/-- A block that is out after a call was out before, or is its answer. -/
theorem mem_or_answer (h : p ∈ call.leaves S) : p ∈ S ∨ call.answer? = some p := by
  cases call with
  | malloc n answer => exact mem_or_granted subset_rfl h
  | realloc q n answer => exact mem_or_granted (fun _ h => h.1) h
  | free q => exact .inl h.1

theorem mem_or_answered (h : p ∈ outstanding (mid ++ earlier)) :
    p ∈ outstanding earlier ∨ ∃ call ∈ mid, call.answer? = some p := by
  induction mid with
  | nil => exact .inl h
  | cons call mid ih =>
    rcases mem_or_answer h with h | h
    · exact (ih h).imp_right fun ⟨c, hc, hp⟩ => ⟨c, List.mem_cons_of_mem _ hc, hp⟩
    · exact .inr ⟨call, List.mem_cons_self, h⟩

theorem Lawful.of_append (h : Lawful (mid ++ earlier)) : Lawful earlier := by
  induction mid with
  | nil => exact h
  | cons call mid ih => exact ih h.2

/-- A block is not freed again unless it was handed out again. -/
theorem Lawful.answered_between (h : Lawful (calls ++ free p :: (mid ++ free p :: earlier))) :
    ∃ call ∈ mid, call.answer? = some p := by
  have hp : p ∈ outstanding (mid ++ free p :: earlier) := (Lawful.of_append h).1 p rfl
  exact (mem_or_answered hp).resolve_left fun hout => hout.2 rfl

end HostCall

/-- An allocator whose calls are written down, the latest first. -/
structure Journal (σ : Type) where
  inner : σ
  calls : List HostCall := []

namespace Journal

variable {σ : Type}

/-- The machine without its journal. -/
def enter (m : Machine (Journal σ)) : Machine σ :=
  ⟨m.host.inner, m.memory⟩

/-- Write down a call that left `m` behind. -/
def leave (j : Journal σ) (call : HostCall) (m : Machine σ) : Machine (Journal σ) :=
  ⟨⟨m.host, call :: j.calls⟩, m.memory⟩

instance [HostAllocator σ] : HostAllocator (Journal σ) where
  malloc n m :=
    let (p, m') := HostAllocator.malloc n (enter m)
    (p, leave m.host (.malloc n p) m')
  realloc p n m :=
    let (q, m') := HostAllocator.realloc p n (enter m)
    (q, leave m.host (.realloc p n q) m')
  free p m := leave m.host (.free p) (HostAllocator.free p (enter m))

end Journal

namespace Blocks

variable {B B' kept : Blocks} {S : Set UInt64} {p q n k : UInt64}

open Classical in
/-- The blocks that start in a set. -/
noncomputable def only (B : Blocks) (S : Set UInt64) : Blocks := fun p => if p ∈ S then B p else none

theorem only_eq_some_iff : B.only S p = some n ↔ p ∈ S ∧ B p = some n := by
  unfold only
  split <;> simp [*]

theorem only_eq_none (h : B p = none) : B.only S p = none := by
  unfold only
  split
  · exact h
  · rfl

theorem only_take : (B.take p n).only (insert p S) = (B.only S).take p n := by
  funext q
  refine Option.ext fun k => ?_
  rw [only_eq_some_iff, take_eq_some_iff, take_eq_some_iff, only_eq_some_iff, Set.mem_insert_iff]
  grind

theorem only_drop : (B.drop p).only (S \ {p}) = (B.only S).drop p := by
  funext q
  refine Option.ext fun k => ?_
  rw [only_eq_some_iff, drop_eq_some_iff, drop_eq_some_iff, only_eq_some_iff, Set.mem_sdiff,
    Set.mem_singleton_iff]
  grind

theorem Apart.only (h : B.Apart) : (B.only S).Apart where
  size_pos hn := h.size_pos (only_eq_some_iff.1 hn).2
  fits hn := h.fits (only_eq_some_iff.1 hn).2
  beside hn hk := h.beside (only_eq_some_iff.1 hn).2 (only_eq_some_iff.1 hk).2

/-- The same answer, of blocks that start in a set. -/
theorem Answered.only {answer : Option UInt64} {S' : Set UInt64} (h : B.Answered kept n answer B') :
    (B.only S).Answered (kept.only S') n answer (B'.only (HostCall.granted S S' answer)) := by
  cases answer with
  | none => exact congrArg (·.only S) h
  | some p =>
    obtain ⟨hp, rfl⟩ := h
    exact ⟨only_eq_none hp, only_take⟩

/-- Blocks that were there, or stay, are there after an answer. -/
theorem Answered.ne_none {answer : Option UInt64} {S' : Set UInt64}
    (h : B.Answered kept n answer B') (hB : ∀ q ∈ S, B q ≠ none) (hkept : ∀ q ∈ S', kept q ≠ none) :
    ∀ q ∈ HostCall.granted S S' answer, B' q ≠ none := by
  cases answer with
  | none => exact (show B' = B from h) ▸ hB
  | some p =>
    obtain ⟨-, rfl⟩ := h
    rintro q (rfl | hq)
    · simp
    · by_cases hqp : q = p
      · simp [hqp]
      · exact take_of_ne hqp ▸ hkept q hq

theorem drop_ne_none (hB : ∀ q ∈ S, B q ≠ none) : ∀ q ∈ S \ {p}, B.drop p q ≠ none := by
  rintro q ⟨hq, hne⟩
  rw [drop_of_ne hne]
  exact hB q hq

end Blocks

namespace HostContract

open HostCall Blocks

variable {σ : Type} [HostAllocator σ] (R : HostContract σ)

/-- The contract of an allocator that owns what its journal shows to be out. Its states are those
with a lawful journal. -/
noncomputable def journal : HostContract (Journal σ) where
  Valid j := R.Valid j.inner ∧ Lawful j.calls ∧ ∀ p ∈ outstanding j.calls, R.owned j.inner p ≠ none
  owned j := (R.owned j.inner).only (outstanding j.calls)
  apart h := (R.apart h.1).only
  malloc {n m} h hn := by
    obtain ⟨hvalid, hlawful, howned⟩ := h
    obtain ⟨hvalid, hans⟩ := R.malloc (m := Journal.enter m) hvalid hn
    exact ⟨⟨hvalid, ⟨nofun, hlawful⟩, hans.ne_none howned howned⟩, hans.only⟩
  realloc {p n k m} h hp hn := by
    obtain ⟨hvalid, hlawful, howned⟩ := h
    obtain ⟨hout, hp⟩ := only_eq_some_iff.1 hp
    obtain ⟨hvalid, hans⟩ := R.realloc (m := Journal.enter m) hvalid hp hn
    refine ⟨⟨hvalid, ⟨fun q hq => Option.some.inj hq ▸ hout, hlawful⟩,
      hans.ne_none howned (drop_ne_none howned)⟩, ?_⟩
    rw [← only_drop]
    exact hans.only
  free {p k m} h hp := by
    obtain ⟨hvalid, hlawful, howned⟩ := h
    obtain ⟨hout, hp⟩ := only_eq_some_iff.1 hp
    obtain ⟨hvalid, hdrop⟩ := R.free (m := Journal.enter m) hvalid hp
    refine ⟨⟨hvalid, ⟨fun q hq => Option.some.inj hq ▸ hout, hlawful⟩, ?_⟩, ?_⟩
    · show ∀ q ∈ outstanding m.host.calls \ {p},
        R.owned (HostAllocator.free p (Journal.enter m)).host q ≠ none
      rw [hdrop]
      exact drop_ne_none howned
    · show (R.owned (HostAllocator.free p (Journal.enter m)).host).only _ = _
      rw [hdrop]
      exact only_drop

/-- The contract of an allocator from which one block is withheld. Its states are those whose
journal, since it was `earlier`, has no call that takes the block. -/
noncomputable def withholding (withheld : UInt64) (earlier : List HostCall) :
    HostContract (Journal σ) where
  Valid j := R.journal.Valid j ∧ R.journal.owned j withheld ≠ none ∧
    ∃ later, j.calls = later ++ earlier ∧ ∀ call ∈ later, call.takes? ≠ some withheld
  owned j := (R.journal.owned j).drop withheld
  apart h := (R.journal.apart h.1).drop
  malloc {n m} h hn := by
    obtain ⟨hvalid, howned, later, hlater, htakes⟩ := h
    obtain ⟨k, hk⟩ := Option.ne_none_iff_exists'.1 howned
    obtain ⟨hvalid, hans⟩ := R.journal.malloc hvalid hn
    refine ⟨⟨hvalid, ?_, .malloc n _ :: later, congrArg (_ :: ·) hlater, ?_⟩, hans.drop hk⟩
    · rw [hans.eq_some hk hk]
      exact Option.some_ne_none k
    · exact List.forall_mem_cons.2 ⟨nofun, htakes⟩
  realloc {p n k m} h hp hn := by
    obtain ⟨hvalid, howned, later, hlater, htakes⟩ := h
    obtain ⟨l, hl⟩ := Option.ne_none_iff_exists'.1 howned
    obtain ⟨hne, hp⟩ := drop_eq_some_iff.1 hp
    have hkept := (drop_of_ne hne.symm).trans hl
    obtain ⟨hvalid, hans⟩ := R.journal.realloc hvalid hp hn
    refine ⟨⟨hvalid, ?_, .realloc p n _ :: later, congrArg (_ :: ·) hlater, ?_⟩, ?_⟩
    · rw [hans.eq_some hl hkept]
      exact Option.some_ne_none l
    · exact List.forall_mem_cons.2 ⟨fun h => hne (Option.some.inj h), htakes⟩
    · rw [drop_comm]
      exact hans.drop hkept
  free {p k m} h hp := by
    obtain ⟨hvalid, howned, later, hlater, htakes⟩ := h
    obtain ⟨hne, hp⟩ := drop_eq_some_iff.1 hp
    obtain ⟨hvalid, hdrop⟩ := R.journal.free hvalid hp
    refine ⟨⟨hvalid, ?_, .free p :: later, congrArg (_ :: ·) hlater, ?_⟩, ?_⟩
    · rw [hdrop, drop_of_ne hne.symm]
      exact howned
    · exact List.forall_mem_cons.2 ⟨fun h => hne (Option.some.inj h), htakes⟩
    · rw [hdrop, drop_comm]

end HostContract

end HostServices
