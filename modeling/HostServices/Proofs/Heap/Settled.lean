import HostServices.Proofs.Heap.Answer
import Mathlib.Data.Set.Insert

/-!
# Bytes that are settled

A byte is settled when the heap or its users have written it: the bytes around live blocks, and the
users' bytes that are not exposed to what memory held before. Two memories agree on a heap if they
hold the same settled bytes (`HeapMap.Agree`). What one operation does to them is the same on both
sides, one lemma for each thing that happens to a block: it is written to (`Agree.write`), its record
goes (`Agree.erase`), it goes back to the host (`Agree.release`, `Agree.forget`), or a fresh one comes
(`Agree.record`, `Agree.lend`).
-/

namespace HostServices

open BlockHeader (outerOf innerOf outerOf_innerOf innerOf_outerOf InBand Around)
open Memory (InRange)

/-! ## Exposed bytes -/

/-- What stays exposed when the `len` bytes at `start` are written. -/
def covered (E : Set UInt64) (start : UInt64) (len : Nat) : Set UInt64 :=
  {a ∈ E | ¬ InRange start len a}

/-- What is exposed when the `old` bytes at `p` have become the `new` bytes at `q`: what was exposed
moves along, and what was gained is exposed. -/
def carried (E : Set UInt64) (p old q new : UInt64) : Set UInt64 :=
  {a | if InRange q new.toNat a then old.toNat ≤ (a - q).toNat ∨ p + (a - q) ∈ E else a ∈ E}

section exposed

variable {E : Set UInt64} {p q old new a : UInt64} {len : Nat}

theorem covered_subset : covered E p len ⊆ E :=
  fun _ ha => ha.1

theorem mem_of_not_covered (ha : a ∉ covered E p len) (hout : ¬ InRange p len a) : a ∉ E :=
  fun hE => ha ⟨hE, hout⟩

theorem mem_of_not_carried (ha : a ∉ carried E p old q new) (hout : ¬ InRange q new.toNat a) :
    a ∉ E := by
  rwa [carried, Set.mem_ofPred_eq, if_neg hout] at ha

/-- What is not exposed in a block that was moved has been in it before. -/
theorem kept_of_not_carried (ha : a ∉ carried E p old q new) (hin : InRange q new.toNat a) :
    ∃ i < min old.toNat new.toNat, a = q + UInt64.ofNat i ∧ p + UInt64.ofNat i ∉ E := by
  rw [carried, Set.mem_ofPred_eq, if_pos hin, not_or, Nat.not_le] at ha
  refine ⟨(a - q).toNat, lt_min ha.1 hin, ?_, ?_⟩
  · rw [UInt64.ofNat_toNat, UInt64.add_comm, UInt64.sub_add_cancel]
  · rw [UInt64.ofNat_toNat]
    exact ha.2

/-- A block that does not grow exposes nothing. -/
theorem carried_empty (hle : new ≤ old) : carried ∅ p old q new = ∅ := by
  refine Set.eq_empty_of_forall_notMem fun a ha => ?_
  have hle : new.toNat ≤ old.toNat := UInt64.le_iff_toNat_le.1 hle
  by_cases hin : InRange q new.toNat a
  · rw [carried, Set.mem_ofPred_eq, if_pos hin] at ha
    obtain hgained | hexposed := ha
    · exact absurd (Nat.lt_of_lt_of_le hin hle) (Nat.not_lt.2 hgained)
    · exact hexposed
  · rwa [carried, Set.mem_ofPred_eq, if_neg hin] at ha

end exposed

/-! ## Where users' bytes are -/

/-- Where a heap has its blocks: those of its host, which of them users have as they are, and the
live ones. -/
structure HeapMap where
  owned : Blocks
  bare : UInt64 → Bool
  live : AddressMap LiveBlock

namespace HeapMap

variable {M N : HeapMap} {E F : Set UInt64} {early : EarlyBlocks} {kept : Blocks}
  {m m' m₁ m₁' : Memory} {p q n k outer a : UInt64} {b : LiveBlock}

/-- The sizes of users' blocks. -/
def usable (M : HeapMap) : Blocks := fun p =>
  match M.live.get? p with
  | some b => some b.size
  | none => if M.bare p then M.owned p else none

theorem usable_of_live (hb : M.live.get? p = some b) : M.usable p = some b.size := by
  rw [usable, hb]

theorem usable_of_bare (hb : M.live.get? p = none) (hp : M.bare p = true) :
    M.usable p = M.owned p := by
  rw [usable, hb]
  exact if_pos hp

theorem usable_eq_some_iff : M.usable p = some n ↔
    (∃ b, M.live.get? p = some b ∧ b.size = n) ∨
      M.live.get? p = none ∧ M.bare p = true ∧ M.owned p = some n := by
  unfold usable
  cases M.live.get? p with
  | some b => simp
  | none => simp

/-- An address in the header or footer of a live block, or of a user's byte that is not exposed. -/
def Settled (M : HeapMap) (E : Set UInt64) (a : UInt64) : Prop :=
  (∃ p b, M.live.get? p = some b ∧ InBand p b.size a) ∨
    ∃ p n, M.usable p = some n ∧ InRange p n.toNat a ∧ a ∉ E

/-- Two memories hold the same settled bytes. -/
def Agree (M : HeapMap) (E : Set UInt64) (m m' : Memory) : Prop :=
  ∀ ⦃a⦄, M.Settled E a → m' a = m a

theorem Settled.mono (ha : N.Settled F a) (hE : a ∉ F → a ∉ E)
    (hlive : ∀ {p b}, N.live.get? p = some b → M.live.get? p = some b)
    (husable : ∀ {p n}, N.usable p = some n → M.usable p = some n) : M.Settled E a := by
  obtain ⟨p, b, hb, hin⟩ | ⟨p, n, hn, hin, hF⟩ := ha
  · exact .inl ⟨p, b, hlive hb, hin⟩
  · exact .inr ⟨p, n, husable hn, hin, hE hF⟩

/-- A settled byte is in a block of the host. -/
theorem Settled.within (ha : M.Settled E a) (hs : Secured M.owned early M.live) :
    ∃ o k, M.owned o = some k ∧ InRange o k.toNat a := by
  have around {p : UInt64} {b : LiveBlock} (hb : M.live.get? p = some b) (hin : Around p b.size a) :
      ∃ o k, M.owned o = some k ∧ InRange o k.toNat a := by
    obtain ⟨k, hk, hlength⟩ := hs.liveOwned hb
    exact ⟨outerOf p, k, hk, hlength.symm ▸ hin⟩
  obtain ⟨p, b, hb, hin⟩ | ⟨p, n, hn, hin, -⟩ := ha
  · exact around hb (BlockHeader.around_of_inBand (hs.length_lt hb) hin)
  · obtain ⟨b, hb, rfl⟩ | ⟨-, -, hn⟩ := usable_eq_some_iff.1 hn
    · exact around hb (BlockHeader.around_of_user (hs.length_lt hb) hin)
    · exact ⟨p, n, hn, hin⟩

/-! ## What keeps agreement -/

/-- Blocks may go and others may be exposed; the host leaves what stays alone on both sides. -/
theorem Agree.of_sameBytes (h : M.Agree E m m') (hs : Secured N.owned early N.live)
    (hsub : ∀ ⦃a⦄, N.Settled F a → M.Settled E a) (hsame : N.owned.SameBytes m m₁)
    (hsame' : N.owned.SameBytes m' m₁') : N.Agree F m₁ m₁' := by
  intro a ha
  obtain ⟨o, k, ho, hin⟩ := ha.within hs
  rw [hsame ho a hin, hsame' ho a hin]
  exact h (hsub ha)

/-- Users write the same bytes on both sides, wherever that is. -/
theorem Agree.write (h : M.Agree E m m') (start : UInt64) (bs : Array UInt8) :
    M.Agree (covered E start bs.size) (m.write start bs) (m'.write start bs) := by
  intro a ha
  by_cases hin : InRange start bs.size a
  · exact Memory.write_of_inRange hin m' m
  · rw [Memory.write_of_not_inRange hin, Memory.write_of_not_inRange hin]
    exact h (ha.mono (fun hE => mem_of_not_covered hE hin) id id)

/-- The map without the record of a block. -/
def erase (M : HeapMap) (p : UInt64) : HeapMap :=
  { M with live := M.live.erase p }

/-- The map without a live block and the host's block around it. -/
def release (M : HeapMap) (p : UInt64) : HeapMap :=
  { M.erase p with owned := M.owned.drop (outerOf p) }

theorem live_of_erase (hb : (M.live.erase p).get? q = some b) :
    q ≠ p ∧ M.live.get? q = some b := by
  rw [AddressMap.get?_erase] at hb
  split at hb
  · cases hb
  · rename_i hne
    exact ⟨Ne.symm hne, hb⟩

theorem live_of_erase_eq_none (hbare : M.bare p = false) (hq : M.bare q = true)
    (hb : (M.live.erase p).get? q = none) : M.live.get? q = none := by
  rw [AddressMap.get?_erase] at hb
  split at hb
  · rename_i heq
    rw [← heq, hbare] at hq
    cases hq
  · exact hb

theorem Settled.of_erase (hbare : M.bare p = false) (ha : (M.erase p).Settled E a) :
    M.Settled E a := by
  refine ha.mono id (fun hb => (live_of_erase hb).2) fun hn => ?_
  obtain ⟨b, hb, hsize⟩ | ⟨hb, hq, hn⟩ := usable_eq_some_iff.1 hn
  · exact usable_eq_some_iff.2 (.inl ⟨b, (live_of_erase hb).2, hsize⟩)
  · exact usable_eq_some_iff.2 (.inr ⟨live_of_erase_eq_none hbare hq hb, hq, hn⟩)

theorem Settled.of_release (hbare : M.bare p = false) (ha : (M.release p).Settled E a) :
    M.Settled E a := by
  refine Settled.of_erase hbare (ha.mono id id fun hn => ?_)
  obtain hb | ⟨hb, hq, hn⟩ := usable_eq_some_iff.1 hn
  · exact usable_eq_some_iff.2 (.inl hb)
  · exact usable_eq_some_iff.2 (.inr ⟨hb, hq, (Blocks.drop_eq_some_iff.1 hn).2⟩)

theorem Agree.erase (h : M.Agree E m m') (hbare : M.bare p = false) : (M.erase p).Agree E m m' :=
  fun _ ha => h (ha.of_erase hbare)

/-- A live block goes back to the host, with its record. -/
theorem Agree.release (h : M.Agree E m m') (hs : Secured M.owned early M.live)
    (hbare : M.bare p = false) (hb : M.live.get? p = some b)
    (hsame : (M.owned.drop (outerOf p)).SameBytes m m₁)
    (hsame' : (M.owned.drop (outerOf p)).SameBytes m' m₁') : (M.release p).Agree E m₁ m₁' :=
  h.of_sameBytes (N := M.release p) (hs.release hb) (fun _ ha => ha.of_release hbare) hsame hsame'

/-! ## Fresh blocks -/

/-- The map with a fresh block that is in no table. -/
def leak (M : HeapMap) (outer k : UInt64) : HeapMap :=
  { M with owned := M.owned.take outer k }

/-- The map with a fresh block and its record. -/
def record (M : HeapMap) (outer k : UInt64) (b : LiveBlock) : HeapMap :=
  { M.leak outer k with live := M.live.insert (innerOf outer) b }

theorem usable_leak (hbare : M.bare outer = false) : (M.leak outer k).usable = M.usable := by
  funext p
  unfold usable leak
  by_cases hp : p = outer
  · simp only [hp, hbare, Bool.false_eq_true, if_false]
  · simp only [Blocks.take_of_ne hp]

theorem Agree.leak (h : M.Agree E m m') (hbare : M.bare outer = false) :
    (M.leak outer k).Agree E m m' := by
  intro a ha
  unfold Settled at ha
  rw [usable_leak hbare] at ha
  exact h ha

section record

variable (hs : Secured M.owned early M.live) (houter : M.owned outer = none)
  (hB : (M.owned.take outer k).Apart) (hlength : k.toNat = b.size.toNat + 18)
include hs houter hB hlength

/-- A byte among those of the user of a fresh block is around no other. -/
theorem not_exposed_of_record (ha : (M.record outer k b).Settled F a)
    (hin : InRange (innerOf outer) b.size.toNat a) : a ∉ F := by
  have hn : b.size.toNat + 18 < 2 ^ 64 := hlength ▸ k.toNat_lt
  obtain ⟨p, b', hb, hband⟩ | ⟨-, -, -, -, hF⟩ := ha
  · exfalso
    have hs' : Secured (M.record outer k b).owned early (M.record outer k b).live :=
      hs.record houter hlength
    have haround := BlockHeader.around_of_inBand (hs'.length_lt hb) hband
    have hblock : InRange outer k.toNat a := by
      have := BlockHeader.around_of_user hn hin
      rwa [Around, outerOf_innerOf, ← hlength] at this
    have heq := hs'.eq_of_around hb hB haround Blocks.take_self hblock
    obtain rfl : p = innerOf outer := by rw [heq, innerOf_outerOf]
    obtain rfl : b' = b := by
      have hself : (M.live.insert (innerOf outer) b).get? (innerOf outer) = some b :=
        (AddressMap.get?_insert ..).trans (if_pos rfl)
      exact Option.some.inj (hb.symm.trans hself)
    exact BlockHeader.not_user_of_inBand hn hband hin
  · exact hF

omit hs houter hB in
/-- What is settled elsewhere was settled before. -/
theorem settled_of_record (hbare : M.bare outer = false) (ha : (M.record outer k b).Settled F a)
    (hE : a ∉ F → a ∉ E) (hout : ¬ Around (innerOf outer) b.size a) : M.Settled E a := by
  have hn : b.size.toNat + 18 < 2 ^ 64 := hlength ▸ k.toNat_lt
  have live_of_ne {p : UInt64} (hp : p ≠ innerOf outer) :
      (M.record outer k b).live.get? p = M.live.get? p :=
    (AddressMap.get?_insert ..).trans (if_neg (Ne.symm hp))
  have hself : (M.record outer k b).live.get? (innerOf outer) = some b :=
    (AddressMap.get?_insert ..).trans (if_pos rfl)
  obtain ⟨p, b', hb, hin⟩ | ⟨p, n, hn', hin, hF⟩ := ha
  · have hp : p ≠ innerOf outer := by
      rintro rfl
      obtain rfl := Option.some.inj (hself.symm.trans hb)
      exact hout (BlockHeader.around_of_inBand hn hin)
    exact .inl ⟨p, b', live_of_ne hp ▸ hb, hin⟩
  · have hp : p ≠ innerOf outer := by
      rintro rfl
      rw [usable_of_live hself] at hn'
      obtain rfl := Option.some.inj hn'
      exact hout (BlockHeader.around_of_user hn hin)
    refine .inr ⟨p, n, ?_, hin, hE hF⟩
    rw [← usable_leak hbare (k := k)]
    unfold usable at hn' ⊢
    rwa [live_of_ne hp] at hn'

/-- A fresh block is recorded: its header is written, and its user's bytes are settled where they are
not exposed. -/
theorem Agree.record (h : M.Agree E m m') (hbare : M.bare outer = false)
    (hE : ∀ a, ¬ InRange (innerOf outer) b.size.toNat a → a ∉ F → a ∉ E)
    (hwritten : ∀ a, ¬ InRange (innerOf outer) b.size.toNat a → m₁ a = b.header.install m outer a)
    (hwritten' : ∀ a, ¬ InRange (innerOf outer) b.size.toNat a → m₁' a = b.header.install m' outer a)
    (huser : ∀ a, InRange (innerOf outer) b.size.toNat a → a ∉ F → m₁' a = m₁ a) :
    (M.record outer k b).Agree F m₁ m₁' := by
  have hn : b.size.toNat + 18 < 2 ^ 64 := hlength ▸ k.toNat_lt
  intro a ha
  by_cases hin : InRange (innerOf outer) b.size.toNat a
  · exact huser a hin (not_exposed_of_record hs houter hB hlength ha hin)
  rw [hwritten a hin, hwritten' a hin]
  by_cases hband : InBand (innerOf outer) b.size a
  · have hsame := BlockHeader.install_of_inBand (h := b.header) hband m' m
    rwa [outerOf_innerOf] at hsame
  · have hout : ¬ Around (innerOf outer) b.size a :=
      fun haround => (BlockHeader.inBand_or_user hn haround).elim hband hin
    have hkept (mem : Memory) : b.header.install mem outer a = mem a := by
      have hkept := BlockHeader.install_of_not_inBand (m := mem) (h := b.header) hband
      rwa [outerOf_innerOf] at hkept
    rw [hkept, hkept]
    exact h (settled_of_record hlength hbare ha (hE a hin) hout)

end record

/-! ## Bare blocks -/

/-- The map without a block that a user had as it was. -/
def forget (M : HeapMap) (p : UInt64) (bare : UInt64 → Bool) : HeapMap :=
  { M with owned := M.owned.drop p, bare }

/-- The map with a fresh block for a user to have as it is. -/
def lend (M : HeapMap) (p n : UInt64) (bare : UInt64 → Bool) : HeapMap :=
  { M with owned := M.owned.take p n, bare }

variable {bare : UInt64 → Bool}

theorem Agree.forget (h : M.Agree E m m') (hs : Secured (M.owned.drop p) early M.live)
    (hbare : ∀ q, bare q = true → M.bare q = true) (hsame : (M.owned.drop p).SameBytes m m₁)
    (hsame' : (M.owned.drop p).SameBytes m' m₁') : (M.forget p bare).Agree E m₁ m₁' := by
  refine h.of_sameBytes (N := M.forget p bare) hs (fun a ha => ha.mono id id fun hn => ?_) hsame hsame'
  obtain hb | ⟨hb, hq, hn⟩ := usable_eq_some_iff.1 hn
  · exact usable_eq_some_iff.2 (.inl hb)
  · exact usable_eq_some_iff.2 (.inr ⟨hb, hbare _ hq, (Blocks.drop_eq_some_iff.1 hn).2⟩)

/-- A fresh block is handed out as it is. -/
theorem Agree.lend (h : M.Agree E m m') (hs : Secured M.owned early M.live) (hp : M.owned p = none)
    (hB : (M.owned.take p n).Apart) (hbare : ∀ q, bare q = true → q ≠ p → M.bare q = true)
    (hE : ∀ a, ¬ InRange p n.toNat a → a ∉ F → a ∉ E)
    (hwritten : ∀ a, ¬ InRange p n.toNat a → m₁ a = m a)
    (hwritten' : ∀ a, ¬ InRange p n.toNat a → m₁' a = m' a)
    (huser : ∀ a, InRange p n.toNat a → a ∉ F → m₁' a = m₁ a) : (M.lend p n bare).Agree F m₁ m₁' := by
  intro a ha
  by_cases hin : InRange p n.toNat a
  · refine huser a hin ?_
    obtain ⟨q, b, hb, hband⟩ | ⟨-, -, -, -, hF⟩ := ha
    · exfalso
      have hs' : Secured (M.lend p n bare).owned early M.live := hs.take hp
      have haround := BlockHeader.around_of_inBand (hs'.length_lt hb) hband
      have heq := hs'.eq_of_around hb hB haround Blocks.take_self hin
      exact hs.live_ne_none hb (heq ▸ hp)
    · exact hF
  · rw [hwritten a hin, hwritten' a hin]
    refine h ?_
    obtain hband | ⟨q, k, hk, hin', hF⟩ := ha
    · exact .inl hband
    · refine .inr ⟨q, k, ?_, hin', hE a hin hF⟩
      obtain hb | ⟨hb, hq, hk⟩ := usable_eq_some_iff.1 hk
      · exact usable_eq_some_iff.2 (.inl hb)
      · obtain ⟨rfl, rfl⟩ | ⟨hne, hk⟩ := Blocks.take_eq_some_iff.1 hk
        · exact absurd hin' hin
        · exact usable_eq_some_iff.2 (.inr ⟨hb, hbare q hq hne, hk⟩)

/-- A block is moved as it is, with its bytes. -/
theorem Agree.resize (h : M.Agree E m m') (hs : Secured (M.owned.drop p) early M.live)
    (hp : M.usable p = some k) (hq : M.owned.drop p q = none)
    (hB : ((M.owned.drop p).take q n).Apart) (hbare : ∀ o, bare o = true → o ≠ q → M.bare o = true)
    (hsame : (M.owned.drop p).SameBytes m m₁) (hsame' : (M.owned.drop p).SameBytes m' m₁')
    (hread : m₁.read q (min k.toNat n.toNat) = m.read p (min k.toNat n.toNat))
    (hread' : m₁'.read q (min k.toNat n.toNat) = m'.read p (min k.toNat n.toNat)) :
    ((M.forget p M.bare).lend q n bare).Agree (carried E p k q n) m₁ m₁' := by
  have hdropped : (M.forget p M.bare).Agree E m₁ m₁' := h.forget hs (fun _ hq => hq) hsame hsame'
  refine hdropped.lend hs hq hB hbare (fun a hout ha => mem_of_not_carried ha hout)
    (fun _ _ => rfl) (fun _ _ => rfl) fun a hin ha => ?_
  obtain ⟨i, hi, rfl, hE⟩ := kept_of_not_carried ha hin
  rw [Memory.apply_of_read hread hi, Memory.apply_of_read hread' hi]
  have hin : InRange p k.toNat (p + UInt64.ofNat i) :=
    Memory.inRange_add (Nat.lt_of_lt_of_le hi (Nat.min_le_left ..)) (Nat.le_of_lt k.toNat_lt)
  exact h (.inr ⟨p, k, hp, hin, hE⟩)

end HeapMap

end HostServices
