import HostServices.Proofs.Heap.Answer
import HostServices.Proofs.Heap.HostCalls

/-!
# Blocks that pass their checks

The header and the footer of a live block agree with its record as long as nobody else writes to
them. What an operation writes is within one host block, and among the user's bytes once the header
is there, so over a careful host operations keep it that all live blocks pass their checks
(`Intact`); and the release of a block that passes, or a resize for its own category, has nothing to
report (`Good.free`, `Good.realloc`).
-/

namespace HostServices

open BlockHeader (outerOf innerOf outerOf_innerOf innerOf_outerOf InBand Around)
open Memory (InRange)

/-- Every live block passes its check. -/
def Intact (mem : Memory) (live : AddressMap LiveBlock) : Prop :=
  ∀ ⦃p b⦄, live.get? p = some b → Ledger.inspectBlock mem p b = .ok ()

section intact

variable {B : Blocks} {early : EarlyBlocks} {live : AddressMap LiveBlock} {mem mem' : Memory}
  {p outer outerSize a : UInt64} {b : LiveBlock}

/-- A fresh host block beside the blocks `B` has the header of `b`, and nothing else was written but
to the user's bytes in it. -/
structure Written (B : Blocks) (mem mem' : Memory) (outer outerSize : UInt64) (b : LiveBlock) :
    Prop where
  fresh : B outer = none
  apart : (B.take outer outerSize).Apart
  length : outerSize.toNat = b.size.toNat + 18
  written : ∀ a, ¬ InRange (innerOf outer) b.size.toNat a → mem' a = b.header.install mem outer a

namespace Written

variable (hw : Written B mem mem' outer outerSize b)
include hw

theorem length_lt : b.size.toNat + 18 < 2 ^ 64 :=
  hw.length ▸ outerSize.toNat_lt

/-- All other blocks are left alone. -/
theorem sameBytes : B.SameBytes mem mem' := by
  refine hw.apart.sameBytes_of_fresh hw.fresh fun a ha => ?_
  have haround : ¬ Around (innerOf outer) b.size a := by
    unfold Around
    rwa [outerOf_innerOf, ← hw.length]
  have hband := BlockHeader.install_of_not_inBand (m := mem) (p := innerOf outer) (h := b.header)
    fun hband => haround (BlockHeader.around_of_inBand hw.length_lt hband)
  rw [outerOf_innerOf] at hband
  rw [hw.written a fun hin => haround (BlockHeader.around_of_user hw.length_lt hin), hband]

theorem inspectBlock : Ledger.inspectBlock mem' (innerOf outer) b = .ok () := by
  have hinstall := BlockHeader.inspectBlock_install (m := mem) (p := innerOf outer) hw.length_lt
  rw [outerOf_innerOf] at hinstall
  rw [← hinstall]
  exact BlockHeader.inspectBlock_congr fun a ha =>
    hw.written a (BlockHeader.not_user_of_inBand hw.length_lt ha)

end Written

theorem intact_empty (mem : Memory) : Intact mem .empty :=
  fun _ _ h => nomatch h

namespace Intact

variable (h : Intact mem live)
include h

theorem erase (p : UInt64) : Intact mem (live.erase p) := by
  intro q b hb
  rw [AddressMap.get?_erase] at hb
  split at hb
  · cases hb
  · exact h hb

theorem of_sameBytes (hs : Secured B early live) (hsame : B.SameBytes mem mem') :
    Intact mem' live := by
  intro p b hb
  rw [← h hb]
  exact BlockHeader.inspectBlock_congr fun a ha =>
    hs.around hb hsame (BlockHeader.around_of_inBand (hs.length_lt hb) ha)

/-- A block that goes may take its bytes with it. -/
theorem release (hs : Secured B early live) (hb : live.get? p = some b)
    (hsame : (B.drop (outerOf p)).SameBytes mem mem') : Intact mem' (live.erase p) :=
  (h.erase p).of_sameBytes (hs.release hb) hsame

/-- A fresh block with its header, whose user's bytes were written after that. -/
theorem record (hs : Secured B early live) (hwritten : Written B mem mem' outer outerSize b) :
    Intact mem' (live.insert (innerOf outer) b) := by
  intro q b' hb
  rw [AddressMap.get?_insert] at hb
  split at hb
  · rename_i heq
    obtain rfl := Option.some.inj hb
    rw [← heq]
    exact hwritten.inspectBlock
  · exact h.of_sameBytes hs hwritten.sameBytes hb

/-- Users write to bytes of theirs. -/
theorem write (hs : Secured B early live) (hB : B.Apart)
    (hwritten : ∀ a, mem' a ≠ mem a →
      (∃ p b, live.get? p = some b ∧ InRange p b.size.toNat a) ∨
        ∃ p n, early.contains p = true ∧ B p = some n ∧ InRange p n.toNat a) :
    Intact mem' live := by
  intro p b hb
  rw [← h hb]
  refine BlockHeader.inspectBlock_congr fun a ha => ?_
  by_contra hne
  have haround := BlockHeader.around_of_inBand (hs.length_lt hb) ha
  obtain ⟨q, b', hb', ha'⟩ | ⟨q, n, hq, hn, ha'⟩ := hwritten a hne
  · obtain ⟨k, hk, hlength⟩ := hs.liveOwned hb'
    have haround' := BlockHeader.around_of_user (hs.length_lt hb') ha'
    have heq := hs.eq_of_around hb hB haround hk (hlength.symm ▸ haround')
    obtain rfl := BlockHeader.outerOf_inj heq
    obtain rfl := Option.some.inj (hb.symm.trans hb')
    exact BlockHeader.not_user_of_inBand (hs.length_lt hb) ha ha'
  · rw [hs.eq_of_around hb hB haround hn ha', hs.beside hb] at hq
    cases hq

end Intact

end intact

/-- A step that reports nothing, and after which live blocks still pass their checks. -/
structure Heap.Quiet {σ : Type} (h h' : Heap σ) : Prop where
  reports : h'.reports = h.reports
  intact : Intact h.memory h.live → Intact h'.memory h'.live

theorem Heap.Quiet.trans {σ : Type} {h h' h'' : Heap σ} (hq : h.Quiet h') (hq' : h'.Quiet h'') :
    h.Quiet h'' :=
  ⟨hq'.reports.trans hq.reports, hq'.intact ∘ hq.intact⟩

theorem Heap.quiet_early {σ : Type} (e e' : EarlyHeap σ) : Quiet (.early e) (.early e') :=
  ⟨rfl, fun _ => intact_empty _⟩

theorem Heap.Untouched.quiet {σ : Type} [HostAllocator σ] {R : HostContract σ} {h h' : Heap σ}
    (hun : h.Untouched R h') (hs : h.Sound R) : h.Quiet h' := by
  obtain ⟨heq, howned, hbytes⟩ := hun
  rw [heq] at hbytes ⊢
  cases h with
  | early e => exact quiet_early e _
  | ready l => exact ⟨rfl, fun hintact => Intact.of_sameBytes hintact hs.secured hbytes⟩

/-! ## Operations on blocks without a record -/

namespace EarlyHeap

variable {σ : Type} [HostAllocator σ] {R : HostContract σ} {h : EarlyHeap σ} {p k : UInt64}
  (hcareful : R.Careful) (hvalid : R.Valid h.machine.host) (hp : R.owned h.machine.host p = some k)
include hcareful hvalid hp

theorem sameBytes_realloc (n : UInt64) :
    ((R.owned h.machine.host).drop p).SameBytes h.machine.memory
      ((realloc (some p) n).run h).state.machine.memory := by
  rcases hcall : HostAllocator.realloc p (Word.max n 1) h.machine with ⟨_ | q, m⟩
  · rw [realloc_refused hcall]
    exact (hcareful.unresized hvalid hp (Word.max_one_pos n) hcall).drop
  · rw [realloc_granted hcall]
    exact (hcareful.resized hvalid hp (Word.max_one_pos n) hcall).1

theorem sameBytes_free :
    ((R.owned h.machine.host).drop p).SameBytes h.machine.memory
      ((free (some p)).run h).state.machine.memory :=
  hcareful.free hvalid hp

end EarlyHeap

/-! ## Operations on blocks with a record -/

namespace LedgerHeap


variable {σ : Type} {h : LedgerHeap σ} {p n outer outerSize inner oldSize a : UInt64} {b : LiveBlock}
  {c : Category} {origin : Origin}

theorem freshFill_of_not_user (ha : ¬ InRange inner n.toNat a) :
    h.freshFill inner n a = h.memory a := by
  unfold freshFill
  split
  · exact Memory.fill_of_not_inRange ha
  split
  · exact Memory.fill_of_not_inRange ha
  · rfl

theorem grownFill_of_not_user (ha : ¬ InRange inner n.toNat a) :
    h.grownFill inner oldSize n a = h.memory a := by
  unfold grownFill
  split
  · rename_i hgrow
    simp only [Bool.and_eq_true, decide_eq_true_eq] at hgrow
    have hle : oldSize.toNat ≤ n.toNat := Nat.le_of_lt (UInt64.lt_iff_toNat_lt.1 hgrow.1.1)
    have hlength : oldSize.toNat + (n - oldSize).toNat = n.toNat := by
      rw [Word.toNat_sub_of_le hle]
      omega
    refine Memory.fill_of_not_inRange fun hin => ha ?_
    rw [← UInt64.ofNat_toNat (x := oldSize)] at hin
    exact hin.of_part (Nat.le_of_eq (by simpa using hlength)) (Nat.le_of_lt n.toNat_lt)
  · rfl

namespace Fresh

variable {B : Blocks} (hf : Fresh B h outer outerSize n)
include hf

/-- A block that is recorded, with its bytes filled. -/
theorem quiet_recordGranted (c : Category) (origin : Origin) :
    Heap.Quiet (.ready h) (.ready ((recordGranted outer n c origin).run h).state) := by
  obtain ⟨summary, sites, ⟨marker, hstate, hresult⟩ | ⟨e, hstate, hresult⟩⟩ :=
    TrackedMemory.recordMalloc_cases (t := h.tracked) hf.enabled outer n c origin
  · rw [(recordGranted_of_ok hstate hresult).1]
    refine ⟨rfl, fun hintact => ?_⟩
    exact hintact.record (b := ⟨n, c, _, marker⟩) hf.secured
      ⟨hf.fresh, hf.apart, hf.length, fun a ha => freshFill_of_not_user ha⟩
  · rw [(recordGranted_of_error hstate hresult).1]
    exact ⟨rfl, id⟩

/-- The answer is where the block is in the live table. -/
theorem live_recordGranted {answer : Option UInt64}
    (hanswer : ((recordGranted outer n c origin).run h).result = .ok answer) :
    answer = some (innerOf outer) ∧
      ∃ b, ((recordGranted outer n c origin).run h).state.ledger.live.get? (innerOf outer) = some b ∧
        b.size = n := by
  obtain ⟨summary, sites, ⟨marker, hstate, hresult⟩ | ⟨e, hstate, hresult⟩⟩ :=
    TrackedMemory.recordMalloc_cases (t := h.tracked) hf.enabled outer n c origin
  · obtain ⟨hstate', hresult'⟩ := recordGranted_of_ok hstate hresult
    rw [hresult'] at hanswer
    rw [hstate']
    refine ⟨(Except.ok.inj hanswer).symm, ⟨n, c, h.ledger.originOf origin, marker⟩, ?_, rfl⟩
    exact (AddressMap.get?_insert ..).trans (if_pos rfl)
  · rw [(recordGranted_of_error hstate hresult).2] at hanswer
    cases hanswer

variable {before : Option UInt64} {old oldSize : UInt64}
  (hkept : ∀ expected, before = some expected →
    checksum (h.memory.read (innerOf outer) (Word.min oldSize n).toNat) = expected)
include hkept

/-- The header is written beside the bytes that are compared. -/
theorem checksum_install (b : LiveBlock) (hb : b.size = n) {expected : UInt64}
    (hexpected : before = some expected) :
    checksum (Memory.read (b.header.install h.memory outer) (innerOf outer)
      (Word.min oldSize n).toNat) = expected := by
  subst hb
  have hn : b.size.toNat + 18 < 2 ^ 64 := hf.length ▸ outerSize.toNat_lt
  have hle : (Word.min oldSize b.size).toNat ≤ b.size.toNat := by
    rw [Word.toNat_min]
    exact Nat.min_le_right ..
  rw [BlockHeader.read_install_user hn hle]
  exact hkept expected hexpected

/-- A block that is recorded in place of another, with the bytes in it that it has to keep. -/
theorem quiet_recordResized (c : Category) (origin : Origin) :
    Heap.Quiet (.ready h) (.ready ((recordResized before old oldSize outer n c origin).run h).state) := by
  obtain ⟨summary, sites, ⟨marker, hstate, hresult⟩ | ⟨e, hstate, hresult⟩⟩ :=
    TrackedMemory.recordMalloc_cases (t := h.tracked) hf.enabled outer n c origin
  · rw [(recordResized_of_ok hstate hresult fun _ => hf.checksum_install hkept ⟨n, c, _, marker⟩ rfl).1]
    refine ⟨rfl, fun hintact => ?_⟩
    exact hintact.record (b := ⟨n, c, _, marker⟩) hf.secured
      ⟨hf.fresh, hf.apart, hf.length, fun a ha => grownFill_of_not_user ha⟩
  · rw [(recordResized_of_error hstate hresult).1]
    exact ⟨rfl, id⟩

theorem answer_recordResized {answer : Option UInt64}
    (hanswer : ((recordResized before old oldSize outer n c origin).run h).result = .ok answer) :
    answer = some (innerOf outer) := by
  obtain ⟨summary, sites, ⟨marker, hstate, hresult⟩ | ⟨e, hstate, hresult⟩⟩ :=
    TrackedMemory.recordMalloc_cases (t := h.tracked) hf.enabled outer n c origin
  · rw [(recordResized_of_ok hstate hresult
      fun _ => hf.checksum_install hkept ⟨n, c, _, marker⟩ rfl).2] at hanswer
    exact (Except.ok.inj hanswer).symm
  · rw [(recordResized_of_error hstate hresult).2] at hanswer
    cases hanswer

end Fresh

/-- What leaves the bytes of blocks alone is quiet. -/
theorem quiet_of_sameBytes {h h' : LedgerHeap σ} {B : Blocks} {early : EarlyBlocks}
    (hs : Secured B early h.ledger.live) (hsame : B.SameBytes h.memory h'.memory)
    (hledger : h'.ledger = h.ledger) : Heap.Quiet (.ready h) (.ready h') where
  reports := congrArg (·.reports) hledger
  intact hintact := by
    show Intact h'.memory h'.ledger.live
    rw [hledger]
    exact Intact.of_sameBytes hintact hs hsame

/-- A block that is in the counters or not, and that takes its bytes with it when it goes. -/
theorem quiet_of_release {h h' : LedgerHeap σ} {B : Blocks} {early : EarlyBlocks}
    (hs : Secured B early h.ledger.live) (hb : h.ledger.live.get? p = some b)
    (hsame : (B.drop (outerOf p)).SameBytes h.memory h'.memory)
    (hledger : h'.ledger = h.ledger.retire p b) : Heap.Quiet (.ready h) (.ready h') where
  reports := congrArg (·.reports) hledger
  intact hintact := by
    show Intact h'.memory h'.ledger.live
    rw [hledger]
    exact Intact.release hintact hs hb hsame

section calls

variable [HostAllocator σ] {R : HostContract σ} (hcareful : R.Careful) (hs : Heap.Sound R (.ready h))
include hcareful hs

theorem quiet_malloc (n : UInt64) (c : Category) (origin : Origin) :
    Heap.Quiet (.ready h) (.ready ((malloc n c origin).run h).state) := by
  obtain ⟨huntouched, -⟩ | ⟨outer, outerSize, m, hf, hsame, hrun⟩ := malloc_cases hcareful hs n c origin
  · exact huntouched.quiet hs
  · rw [hrun]
    have hgranted : Heap.Quiet (.ready h) (.ready (h.setMachine m)) :=
      quiet_of_sameBytes hs.secured hsame rfl
    exact hgranted.trans (hf.quiet_recordGranted c origin)

theorem live_malloc {n : UInt64} {c : Category} {origin : Origin}
    (hanswer : ((malloc n c origin).run h).result = .ok (some p)) :
    ∃ b, ((malloc n c origin).run h).state.ledger.live.get? p = some b ∧ b.size = Word.max n 1 := by
  obtain ⟨-, hnone⟩ | ⟨outer, outerSize, m, hf, -, hrun⟩ := malloc_cases hcareful hs n c origin
  · rw [hnone] at hanswer
    cases hanswer
  · rw [hrun] at hanswer ⊢
    obtain ⟨heq, hb⟩ := hf.live_recordGranted hanswer
    obtain rfl := Option.some.inj heq
    exact hb

section early

variable (hp : h.early.blocks.contains p = true)
include hp

theorem quiet_realloc_early (n : UInt64) (c : Category) (origin : Origin) :
    Heap.Quiet (.ready h) (.ready ((realloc (some p) n c origin).run h).state) := by
  obtain ⟨k, hk⟩ := Option.ne_none_iff_exists'.1 (hs.secured.earlyOwned hp)
  rw [run_realloc_early hp]
  exact quiet_of_sameBytes (hs.secured.forget hp)
    (EarlyHeap.sameBytes_realloc hcareful hs.valid hk n) rfl

theorem quiet_free_early : Heap.Quiet (.ready h) (.ready ((free (some p)).run h).state) := by
  obtain ⟨k, hk⟩ := Option.ne_none_iff_exists'.1 (hs.secured.earlyOwned hp)
  rw [run_free_early hp]
  exact quiet_of_sameBytes (hs.secured.forget hp) (EarlyHeap.sameBytes_free hcareful hs.valid hk) rfl

end early

variable (hp : h.early.blocks.contains p = false) (hb : h.ledger.live.get? p = some b)
  (hok : Ledger.inspectBlock h.memory p b = .ok ())
include hp hb hok

/-- A resize of a good block for its own category. -/
theorem quiet_realloc (n : UInt64) (origin : Origin) :
    Heap.Quiet (.ready h) (.ready ((realloc (some p) n b.category origin).run h).state) := by
  rw [run_realloc_tracked (hs.enabled _ rfl) hp]
  cases hsize : Word.add? (Word.max n 1) h.ledger.overhead with
  | none =>
    rw [reallocTracked_tooLarge hsize]
    exact ⟨rfl, id⟩
  | some outerSize =>
    rw [reallocTracked_intact (hs.enabled _ rfl) hsize hb (Ledger.inspectForResize_of_ok hok)]
    obtain ⟨huntouched, -⟩ | ⟨outer, m, hmoved, hrun⟩ :=
      resizeRemoved_cases hcareful hs hb hok (Word.max_one_pos n) hsize origin
    · exact huntouched.quiet hs
    · rw [hrun]
      have hreleased : Heap.Quiet (.ready h) (.ready ((h.retire p b).setMachine m)) :=
        quiet_of_release hs.secured hb hmoved.others rfl
      exact hreleased.trans
        (hmoved.fresh.quiet_recordResized (fun _ => hmoved.keptHash) b.category origin)

theorem quiet_free :
    Heap.Quiet (.ready h) (.ready ((free (some p)).run h).state) ∧
      ((free (some p)).run h).result = .ok () := by
  obtain ⟨hstate, hresult⟩ := free_intact (hs.enabled _ rfl) hp hb hok
  refine ⟨?_, hresult⟩
  have hsecured : Secured (R.owned h.early.machine.host) h.early.blocks h.ledger.live := hs.secured
  obtain ⟨k, hk, -⟩ := hsecured.liveOwned hb
  have hvalid : R.Valid (h.takenOut p b).early.machine.host := hs.valid
  have hmarked := hsecured.sameBytes_setMarks hb (R.apart hs.valid) h.memory BlockHeader.dead
  rw [hstate]
  exact quiet_of_release hsecured hb (hmarked.trans (hcareful.free hvalid hk)) rfl

end calls

section intact

variable [HostAllocator σ] {R : HostContract σ} (hcareful : R.Careful) (hs : Heap.Sound R (.ready h))
  (hintact : Intact h.memory h.ledger.live)
include hcareful hs hintact

/-- A block of another category goes without a change of memory. -/
theorem intact_after_realloc (p n : UInt64) (c : Category) (origin : Origin) :
    Intact ((realloc (some p) n c origin).run h).state.memory
      ((realloc (some p) n c origin).run h).state.ledger.live := by
  have henabled : h.ledger.enabled = true := hs.enabled _ rfl
  cases hp : h.early.blocks.contains p with
  | true => exact (quiet_realloc_early hcareful hs hp n c origin).intact hintact
  | false =>
    cases hb : h.ledger.live.get? p with
    | none =>
      rw [run_realloc_tracked henabled hp]
      cases hsize : Word.add? (Word.max n 1) h.ledger.overhead with
      | none =>
        rw [reallocTracked_tooLarge hsize]
        exact hintact
      | some outerSize =>
        rw [reallocTracked_notLive henabled hsize hb]
        exact hintact
    | some b =>
      by_cases hc : b.category = c
      · subst hc
        exact (quiet_realloc hcareful hs hp hb (hintact hb) n origin).intact hintact
      · rw [run_realloc_tracked henabled hp]
        cases hsize : Word.add? (Word.max n 1) h.ledger.overhead with
        | none =>
          rw [reallocTracked_tooLarge hsize]
          exact hintact
        | some outerSize =>
          cases hkind : Ledger.inspectForResize h.memory p b c with
          | ok u => exact absurd (Ledger.category_of_inspectForResize hkind) hc
          | error kind =>
            rw [reallocTracked_damaged henabled hsize hb hkind]
            exact Intact.erase hintact p

theorem intact_after_free (p : UInt64) :
    Intact ((free (some p)).run h).state.memory ((free (some p)).run h).state.ledger.live := by
  cases hp : h.early.blocks.contains p with
  | true => exact (quiet_free_early hcareful hs hp).intact hintact
  | false =>
    cases hb : h.ledger.live.get? p with
    | none =>
      rw [free_notLive (hs.enabled _ rfl) hp hb]
      exact hintact
    | some b => exact (quiet_free hcareful hs hp hb (hintact hb)).1.intact hintact

end intact

end LedgerHeap

/-! ## Good blocks -/

namespace Heap

variable {σ : Type} [HostAllocator σ] {R : HostContract σ} {h : Heap σ} {p : UInt64}

/-- A block that is from before the ledger, or has a record and passes its check. -/
def Good (h : Heap σ) (p : UInt64) : Prop :=
  h.base.blocks.contains p = true ∨
    ∃ b, h.live.get? p = some b ∧ Ledger.inspectBlock h.memory p b = .ok ()

section calls

variable (hcareful : R.Careful) (hs : h.Sound R)
include hcareful hs

/-- A good block is released without a report. -/
theorem Good.free (hgood : h.Good p) :
    h.Quiet ((HeapCall.free (some p)).perform h) ∧ ((Heap.free (some p)).run h).result = .ok () := by
  cases h with
  | early e => exact ⟨quiet_early e _, rfl⟩
  | ready l =>
    cases hp : l.early.blocks.contains p with
    | true =>
      refine ⟨LedgerHeap.quiet_free_early hcareful hs hp, ?_⟩
      show ((LedgerHeap.free (some p)).run l).result = .ok ()
      rw [LedgerHeap.run_free_early hp]
      rfl
    | false =>
      obtain hp' | ⟨b, hb, hok⟩ := hgood
      · exact absurd (hp'.symm.trans hp) nofun
      · exact LedgerHeap.quiet_free hcareful hs hp hb hok

/-- A good block is resized for its own category without a report. -/
theorem Good.realloc {c : Category} (hgood : h.Good p)
    (hc : ∀ b, h.live.get? p = some b → b.category = c) (n : UInt64) (origin : Origin) :
    h.Quiet ((HeapCall.realloc (some p) n c origin).perform h) := by
  cases h with
  | early e => exact quiet_early e _
  | ready l =>
    cases hp : l.early.blocks.contains p with
    | true => exact LedgerHeap.quiet_realloc_early hcareful hs hp n c origin
    | false =>
      obtain hp' | ⟨b, hb, hok⟩ := hgood
      · exact absurd (hp'.symm.trans hp) nofun
      · obtain rfl := hc b hb
        exact LedgerHeap.quiet_realloc hcareful hs hp hb hok n origin

theorem quiet_malloc (n : UInt64) (c : Category) (origin : Origin) :
    h.Quiet ((HeapCall.malloc n c origin).perform h) := by
  cases h with
  | early e => exact quiet_early e _
  | ready l => exact LedgerHeap.quiet_malloc hcareful hs n c origin

end calls

end Heap

end HostServices
