import HostServices.Proofs.Heap.Intact
import HostServices.Proofs.Heap.Settled
import HostServices.Proofs.Host.Twins

/-!
# Heaps over hosts that answer alike

Two heaps are twins if their hosts are, and they differ in memory only, where they agree on settled
bytes (`LedgerHeap.Twins`). Checks come out the same on twins (`Twins.inspectBlock`), and a fresh block
is recorded alike: a new one is filled with zeros (`FreshTwins.recordGranted`), one in place of another
has its bytes, and what it gains is exposed (`FreshTwins.recordResized`).
-/

namespace HostServices

open BlockHeader (outerOf innerOf InBand)
open Memory (InRange)

/-- The exposed bytes after a request for a new block of `n` bytes was answered. -/
def coveredBy (E : Set UInt64) (n : UInt64) : Except Stop (Option UInt64) → Set UInt64
  | .ok (some p) => covered E p n.toNat
  | _ => E

/-- The exposed bytes after a request for `n` bytes in place of the block at `p` was answered, whose
length was `old`. -/
def carriedBy (E : Set UInt64) (p : UInt64) (old : Option UInt64) (n : UInt64) :
    Except Stop (Option UInt64) → Set UInt64
  | .ok (some q) => old.elim E (carried E p · q n)
  | _ => E

/-- A report hands out no block. -/
@[simp] theorem carriedBy_answer (E : Set UInt64) (p n : UInt64) (old : Option UInt64)
    (policy : CorruptionPolicy) (c : Corruption) :
    carriedBy E p old n (policy.answer c none) = E := by
  cases policy <;> rfl

namespace LedgerHeap

section map

variable {σ : Type} [HostAllocator σ] (R : HostContract σ)

/-- Where the blocks are. Without tracking, users have every block of the host as it is. -/
def map (h : LedgerHeap σ) : HeapMap where
  owned := R.owned h.early.machine.host
  bare p := h.early.blocks.contains p || !h.ledger.enabled
  live := h.ledger.live

/-- The books of a heap are in order: it tracks blocks and relies on blocks of the host only, or it
does not and has no record. -/
inductive InOrder (h : LedgerHeap σ) : Prop
  | tracked (hs : Heap.Sound R (.ready h))
  | untracked (henabled : h.ledger.enabled = false) (hlive : h.ledger.live = .empty)

variable {R} {h : LedgerHeap σ} {B : Blocks} {p : UInt64}

theorem InOrder.secured (hbooks : h.InOrder R) :
    ∃ early, Secured (h.map R).owned early (h.map R).live := by
  obtain hs | ⟨-, hlive⟩ := hbooks
  · exact ⟨_, hs.secured⟩
  · refine ⟨.empty, ?_⟩
    rw [show (h.map R).live = .empty from hlive]
    exact .empty _

/-- A block that users have as it is may go. -/
theorem InOrder.secured_drop (hbooks : h.InOrder R) (hbare : (h.map R).bare p = true) :
    ∃ early, Secured ((h.map R).owned.drop p) early (h.map R).live := by
  obtain hs | ⟨-, hlive⟩ := hbooks
  · have henabled : h.ledger.enabled = true := hs.enabled _ rfl
    have hp : h.early.blocks.contains p = true := by
      simpa [map, henabled] using hbare
    exact ⟨_, hs.secured.forget hp⟩
  · refine ⟨.empty, ?_⟩
    rw [show (h.map R).live = .empty from hlive]
    exact .empty _

/-- A live block has a header around it. -/
theorem bare_eq_false (hs : Heap.Sound R (.ready h)) (hp : h.early.blocks.contains p = false) :
    (h.map R).bare p = false := by
  have henabled : h.ledger.enabled = true := hs.enabled _ rfl
  simp [map, hp, henabled]

end map

section twins

variable {σ τ : Type} [HostAllocator σ] [HostAllocator τ] {R : HostContract σ} {Q : HostContract τ}
  (T : HostTwins R Q)

/-- Heaps over hosts that answer alike, which agree on settled bytes and differ in memory only. -/
structure Twins (E : Set UInt64) (h : LedgerHeap σ) (h' : LedgerHeap τ) : Prop where
  alike : T.Alike h.early.machine.host h'.early.machine.host
  blocks : h'.early.blocks = h.early.blocks
  ledger : h'.ledger = h.ledger
  agree : (h.map R).Agree E h.memory h'.memory

/-- Two operations end with the same result, and leave twins in which `F` tells of the result what is
exposed. -/
structure SameOutcome {α : Type} (F : Except Stop α → Set UInt64) (out : Outcome (LedgerHeap σ) α)
    (out' : Outcome (LedgerHeap τ) α) : Prop where
  result : out'.result = out.result
  twins : Twins T (F out.result) out.state out'.state

variable {T} {E : Set UInt64} {h g : LedgerHeap σ} {h' g' : LedgerHeap τ}

theorem SameOutcome.of_eq {α : Type} {F : Except Stop α → Set UInt64}
    {out : Outcome (LedgerHeap σ) α} {out' : Outcome (LedgerHeap τ) α} {r : Except Stop α}
    (hend : out.state = g ∧ out.result = r) (hend' : out'.state = g' ∧ out'.result = r)
    (ht : Twins T (F r) g g') : SameOutcome T F out out' := by
  obtain ⟨rfl, rfl⟩ := hend
  obtain ⟨rfl, hresult⟩ := hend'
  exact ⟨hresult, ht⟩

theorem SameOutcome.of_run {α : Type} {F : Except Stop α → Set UInt64}
    {out : Outcome (LedgerHeap σ) α} {out' : Outcome (LedgerHeap τ) α} {r : Except Stop α}
    {events events' : List Event} (hrun : out = ⟨r, g, events⟩) (hrun' : out' = ⟨r, g', events'⟩)
    (ht : Twins T (F r) g g') : SameOutcome T F out out' := by
  subst hrun hrun'
  exact ⟨rfl, ht⟩

theorem Twins.sound (ht : Twins T E h h') (hs : Heap.Sound R (.ready h)) :
    Heap.Sound Q (.ready h') where
  enabled := by
    intro l hl
    obtain rfl := Option.some.inj hl
    exact ht.ledger.symm ▸ hs.enabled _ rfl
  valid := (T.valid ht.alike).2
  secured := by
    show Secured (Q.owned h'.early.machine.host) h'.early.blocks h'.ledger.live
    rw [T.owned ht.alike, ht.blocks, ht.ledger]
    exact hs.secured

theorem Twins.agree_of_sameBytes {m m' : Memory} (ht : Twins T E h h') (hbooks : h.InOrder R)
    (hsame : (R.owned h.early.machine.host).SameBytes h.memory m)
    (hsame' : (Q.owned h'.early.machine.host).SameBytes h'.memory m') : (h.map R).Agree E m m' := by
  obtain ⟨early, hs⟩ := hbooks.secured
  rw [T.owned ht.alike] at hsame'
  exact ht.agree.of_sameBytes hs (fun _ ha => ha) hsame hsame'

/-- The hosts handed out no block and took none back. -/
theorem Twins.setMachine {m : Machine σ} {m' : Machine τ} (ht : Twins T E h h')
    (halike : T.Alike m.host m'.host) (howned : R.owned m.host = R.owned h.early.machine.host)
    (hagree : (h.map R).Agree E m.memory m'.memory) :
    Twins T E (h.setMachine m) (h'.setMachine m') := by
  refine ⟨halike, ht.blocks, ht.ledger, ?_⟩
  rwa [show (h.setMachine m).map R = h.map R from
    congrArg (fun B => { h.map R with owned := B }) howned]

theorem Twins.of_untouched (ht : Twins T E h h') (hbooks : h.InOrder R)
    (halike : T.Alike g.early.machine.host g'.early.machine.host)
    (hun : Heap.Untouched R (.ready h) (.ready g)) (hun' : Heap.Untouched Q (.ready h') (.ready g')) :
    Twins T E g g' := by
  have hagree := ht.agree_of_sameBytes hbooks hun.bytes hun'.bytes
  have hmoved := ht.setMachine halike hun.owned hagree
  have hg : g = h.setMachine g.early.machine := Heap.ready.inj hun.eq
  have hg' : g' = h'.setMachine g'.early.machine := Heap.ready.inj hun'.eq
  rwa [← hg, ← hg'] at hmoved

/-- Users have the same blocks. -/
theorem Twins.usable (ht : Twins T E h h') : (h'.map Q).usable = (h.map R).usable := by
  unfold map
  rw [T.owned ht.alike, ht.blocks, ht.ledger]

theorem Twins.policy (ht : Twins T E h h') : h'.ledger.policy = h.ledger.policy :=
  congrArg (·.policy) ht.ledger

/-- Checks come out the same. -/
theorem Twins.inspectBlock (ht : Twins T E h h') {p : UInt64} {b : LiveBlock}
    (hb : h.ledger.live.get? p = some b) :
    Ledger.inspectBlock h'.memory p b = Ledger.inspectBlock h.memory p b :=
  BlockHeader.inspectBlock_congr fun _ ha => ht.agree (.inl ⟨p, b, hb, ha⟩)

theorem Twins.inspectForResize (ht : Twins T E h h') {p : UInt64} {b : LiveBlock}
    (hb : h.ledger.live.get? p = some b) (c : Category) :
    Ledger.inspectForResize h'.memory p b c = Ledger.inspectForResize h.memory p b c := by
  unfold Ledger.inspectForResize
  rw [ht.inspectBlock hb]

/-! ## Recording a fresh block -/

section fill

variable {ρ : Type} {h : LedgerHeap ρ} {inner n oldSize a : UInt64}
  (hzero : h.ledger.config.deterministicFill = true)
include hzero

theorem freshFill_of_zeroed (hin : InRange inner n.toNat a) : h.freshFill inner n a = 0 := by
  unfold freshFill
  rw [if_pos hzero]
  exact Memory.fill_of_inRange hin

/-- What a resize gains is not filled. -/
theorem grownFill_of_zeroed : h.grownFill inner oldSize n = h.memory := by
  unfold grownFill
  simp [hzero]

end fill

variable (T) in
/-- Twins whose hosts have a fresh block beside the blocks `B`, which is to be recorded. -/
structure FreshTwins (E : Set UInt64) (B : Blocks) (g : LedgerHeap σ) (g' : LedgerHeap τ)
    (outer k n : UInt64) : Prop where
  fresh : Fresh B g outer k n
  owned : R.owned g.early.machine.host = B.take outer k
  alike : T.Alike g.early.machine.host g'.early.machine.host
  blocks : g'.early.blocks = g.early.blocks
  ledger : g'.ledger = g.ledger
  agree : ({ g.map R with owned := B } : HeapMap).Agree E g.memory g'.memory

namespace FreshTwins

variable {B : Blocks} {F : Set UInt64} {outer k n p oldSize : UInt64} {c : Category} {origin : Origin}
  {b : LiveBlock} {m₁ m₁' : Memory} {summary : MallocSummary} {sites : SiteTable}
  (hf : FreshTwins T E B g g' outer k n)
include hf

theorem bare_eq_false : (g.map R).bare outer = false := by
  have houter : g.early.blocks.contains outer = false := by
    rw [Bool.eq_false_iff]
    exact fun hcontains => hf.fresh.secured.earlyOwned hcontains hf.fresh.fresh
  simp [map, houter, hf.fresh.enabled]

theorem tracked : g'.tracked = ⟨g.ledger, g'.memory⟩ := by
  rw [← hf.ledger]
  rfl

theorem fresh' : Fresh B g' outer k n := by
  obtain ⟨henabled, hsecured, houter, hB, hlength⟩ := hf.fresh
  refine ⟨hf.ledger.symm ▸ henabled, ?_, houter, hB, hlength⟩
  rw [hf.blocks, hf.ledger]
  exact hsecured

theorem map_eq : g.map R = ({ g.map R with owned := B } : HeapMap).leak outer k :=
  congrArg (fun B => ({ g.map R with owned := B } : HeapMap)) hf.owned

/-- A counter went round, and the block is left to the host. -/
theorem leaked (summary : MallocSummary) (sites : SiteTable) :
    Twins T E (g.setTracked ⟨{ g.ledger with summary, sites }, g.memory⟩)
      (g'.setTracked ⟨{ g.ledger with summary, sites }, g'.memory⟩) := by
  refine ⟨hf.alike, hf.blocks, rfl, ?_⟩
  show (g.map R).Agree E g.memory g'.memory
  rw [hf.map_eq]
  exact hf.agree.leak hf.bare_eq_false

/-- The block is recorded, with its header written. -/
theorem recorded (hb : b.size = n) (hE : ∀ a, ¬ InRange (innerOf outer) n.toNat a → a ∉ F → a ∉ E)
    (hwritten : ∀ a, ¬ InRange (innerOf outer) n.toNat a → m₁ a = b.header.install g.memory outer a)
    (hwritten' : ∀ a, ¬ InRange (innerOf outer) n.toNat a →
      m₁' a = b.header.install g'.memory outer a)
    (huser : ∀ a, InRange (innerOf outer) n.toNat a → a ∉ F → m₁' a = m₁ a) :
    Twins T F
      ((g.setTracked (TrackedMemory.install ⟨{ g.ledger with summary, sites }, g.memory⟩ outer b)).setMemory
        m₁)
      ((g'.setTracked (TrackedMemory.install ⟨{ g.ledger with summary, sites }, g'.memory⟩ outer
        b)).setMemory m₁') := by
  subst hb
  refine ⟨hf.alike, hf.blocks, rfl, ?_⟩
  show ({ g.map R with live := g.ledger.live.insert (innerOf outer) b } : HeapMap).Agree F m₁ m₁'
  rw [hf.map_eq]
  exact hf.agree.record hf.fresh.secured hf.fresh.fresh hf.fresh.apart hf.fresh.length hf.bare_eq_false
    hE hwritten hwritten' huser

/-- The block is recorded on both sides, or a counter goes round on both. -/
theorem recordMalloc_cases (c : Category) (origin : Origin) :
    ∃ summary sites,
      (∃ b : LiveBlock, b.size = n ∧
        (((TrackedMemory.recordMalloc outer n c origin).run g.tracked).state =
            TrackedMemory.install ⟨{ g.ledger with summary, sites }, g.memory⟩ outer b ∧
          ((TrackedMemory.recordMalloc outer n c origin).run g.tracked).result =
            .ok (innerOf outer)) ∧
        ((TrackedMemory.recordMalloc outer n c origin).run g'.tracked).state =
            TrackedMemory.install ⟨{ g.ledger with summary, sites }, g'.memory⟩ outer b ∧
          ((TrackedMemory.recordMalloc outer n c origin).run g'.tracked).result =
            .ok (innerOf outer)) ∨
      ∃ e,
        (((TrackedMemory.recordMalloc outer n c origin).run g.tracked).state =
            ⟨{ g.ledger with summary, sites }, g.memory⟩ ∧
          ((TrackedMemory.recordMalloc outer n c origin).run g.tracked).result = .error e) ∧
        ((TrackedMemory.recordMalloc outer n c origin).run g'.tracked).state =
            ⟨{ g.ledger with summary, sites }, g'.memory⟩ ∧
          ((TrackedMemory.recordMalloc outer n c origin).run g'.tracked).result = .error e := by
  rw [hf.tracked]
  obtain ⟨sites, ⟨marker, -, hrun⟩ | ⟨summary, e, -, hrun⟩⟩ :=
    TrackedMemory.recordMalloc_uniform hf.fresh.enabled outer n c origin
  · exact ⟨_, sites, .inl ⟨_, rfl, hrun g.memory, hrun g'.memory⟩⟩
  · exact ⟨summary, sites, .inr ⟨e, hrun g.memory, hrun g'.memory⟩⟩

variable (hzero : g.ledger.config.deterministicFill = true)
include hzero

/-- A new block is recorded and filled with zeros. -/
theorem recordGranted (c : Category) (origin : Origin) :
    SameOutcome T (coveredBy E n) ((recordGranted outer n c origin).run g)
      ((recordGranted outer n c origin).run g') := by
  obtain ⟨summary, sites, ⟨b, hb, hend, hend'⟩ | ⟨e, hend, hend'⟩⟩ := hf.recordMalloc_cases c origin
  · refine .of_eq (recordGranted_of_ok hend.1 hend.2) (recordGranted_of_ok hend'.1 hend'.2) ?_
    refine hf.recorded hb (fun a hout ha => mem_of_not_covered ha hout)
      (fun a hout => freshFill_of_not_user hout) (fun a hout => freshFill_of_not_user hout)
      fun a hin _ => ?_
    refine (freshFill_of_zeroed ?_ hin).trans (freshFill_of_zeroed ?_ hin).symm <;> exact hzero
  · exact .of_eq (recordGranted_of_error hend.1 hend.2) (recordGranted_of_error hend'.1 hend'.2)
      (hf.leaked summary sites)

/-- A block is recorded in place of another, whose bytes it has. -/
theorem recordResized {before before' : Option UInt64} (c : Category) (origin : Origin)
    (hkept : ∀ expected, before = some expected →
      checksum (g.memory.read (innerOf outer) (Word.min oldSize n).toNat) = expected)
    (hkept' : ∀ expected, before' = some expected →
      checksum (g'.memory.read (innerOf outer) (Word.min oldSize n).toNat) = expected)
    (huser : ∀ i < min oldSize.toNat n.toNat, p + UInt64.ofNat i ∉ E →
      g'.memory (innerOf outer + UInt64.ofNat i) = g.memory (innerOf outer + UInt64.ofNat i)) :
    SameOutcome T (carriedBy E p (some oldSize) n)
      ((recordResized before p oldSize outer n c origin).run g)
      ((recordResized before' p oldSize outer n c origin).run g') := by
  obtain ⟨summary, sites, ⟨b, rfl, hend, hend'⟩ | ⟨e, hend, hend'⟩⟩ := hf.recordMalloc_cases c origin
  · refine .of_eq
      (recordResized_of_ok hend.1 hend.2 fun _ => hf.fresh.checksum_install hkept b rfl)
      (recordResized_of_ok hend'.1 hend'.2 fun _ => hf.fresh'.checksum_install hkept' b rfl) ?_
    refine hf.recorded rfl (fun a hout ha => mem_of_not_carried ha hout)
      (fun a hout => grownFill_of_not_user hout) (fun a hout => grownFill_of_not_user hout)
      fun a hin ha => ?_
    obtain ⟨i, hi, rfl, hE⟩ := kept_of_not_carried ha hin
    have hn : b.size.toNat + 18 < 2 ^ 64 := hf.fresh.length ▸ k.toNat_lt
    -- The header is written beside the user's bytes.
    have hkept (mem : Memory) : b.header.install mem outer (innerOf outer + UInt64.ofNat i) =
        mem (innerOf outer + UInt64.ofNat i) := by
      have hout := BlockHeader.install_of_not_inBand (m := mem) (h := b.header)
        fun hband => BlockHeader.not_user_of_inBand hn hband hin
      rwa [BlockHeader.outerOf_innerOf] at hout
    rw [grownFill_of_zeroed, grownFill_of_zeroed]
    · exact (hkept g'.memory).trans ((huser i hi hE).trans (hkept g.memory).symm)
    · exact hzero
    · exact hzero
  · exact .of_eq (recordResized_of_error hend.1 hend.2) (recordResized_of_error hend'.1 hend'.2)
      (hf.leaked summary sites)

end FreshTwins

end twins

end LedgerHeap

end HostServices
