import HostServices.Proofs.Heap.Counted
import HostServices.Proofs.Heap.Reproducible
import HostServices.Proofs.Host.Fresh
import HostServices.Proofs.Ledger.Peaks

/-!
# Peaks of a heap

A tracked heap is sound and its summary stands for its live blocks, so what a call charges fits and
what it discharges is covered: no call raises a peak but to what it leaves
(`LedgerHeap.Change.raises`). A heap whose ledger tracks nothing leaves it alone. So the peaks of any
run are the highest numbers (`Heap.peaks`), and those of a ledger that is used by itself as well.
-/

namespace HostServices

open BlockHeader (outerOf)

variable {σ : Type} [HostAllocator σ] {R : HostContract σ} {K : Set SiteKey}

/-! ## Calls of a tracked heap -/

/-- There is room for a fresh host block, and it is charged or left out of the summary. -/
theorem Secured.summary_recordMalloc {B : Blocks} {early : EarlyBlocks} {t : TrackedMemory}
    {outer outerSize n : UInt64} (henabled : t.ledger.enabled = true)
    (hs : Secured B early t.ledger.live) (hcounted : t.ledger.Counted) (houter : B outer = none)
    (hB : (B.take outer outerSize).Apart) (hsize : Word.add? n t.ledger.overhead = some outerSize)
    (c : Category) (origin : Origin) :
    let summary := ((TrackedMemory.recordMalloc outer n c origin).run t).state.ledger.summary
    t.ledger.summary.Fits c n ∧
      (summary = t.ledger.summary ∨ summary = t.ledger.summary.charge c n) := by
  obtain ⟨-, hfits⟩ := hs.fits_summary (b := ⟨n, c, origin, 0⟩) hcounted houter hB
    (Ledger.toNat_of_overhead henabled hsize)
  refine ⟨hfits, ?_⟩
  obtain ⟨sites, ⟨marker, hstate, -⟩ | ⟨e, hstate, -⟩⟩ :=
    TrackedMemory.recordMalloc_of_summary henabled hfits outer origin
  · exact .inr (congrArg (·.ledger.summary) hstate)
  · exact .inl (congrArg (·.ledger.summary) hstate)

/-- What the host has resized is charged in place of the old block, or left out. -/
theorem Secured.summary_resized {host : σ} {early : EarlyBlocks} {l : Ledger} {b : LiveBlock}
    {p n outer outerSize : UInt64} {m m' : Machine σ} (henabled : l.enabled = true)
    (hvalid : R.Valid host) (hs : Secured (R.owned host) early l.live) (hcounted : l.Counted)
    (hlive : l.live.get? p = some b) (hm : m.host = host) (hn : 0 < n)
    (hsize : Word.add? n l.overhead = some outerSize)
    (hcall : HostAllocator.realloc (outerOf p) outerSize m = (some outer, m')) (origin : Origin) :
    let summary := ((TrackedMemory.recordMalloc outer n b.category origin).run
      ⟨l.retire p b, m'.memory⟩).state.ledger.summary
    let retired := l.summary.deallocate b.category b.size
    retired.Fits b.category n ∧ (summary = retired ∨ summary = retired.charge b.category n) := by
  obtain ⟨hvalid', houter, howned⟩ :=
    R.of_realloc hvalid hm (hs.live_ne_none hlive) (Word.pos_of_add? hsize hn) hcall
  have hB := R.apart hvalid'
  rw [howned] at hB
  exact (hs.release hlive).summary_recordMalloc (t := ⟨l.retire p b, m'.memory⟩) henabled
    (hcounted.retire hlive) houter hB hsize b.category origin

theorem LedgerHeap.Change.raises {h h' : LedgerHeap σ} (hh : h.Change K h')
    (henabled : h.ledger.enabled = true) (hvalid : R.Valid h.early.machine.host)
    (hs : Secured (R.owned h.early.machine.host) h.early.blocks h.ledger.live)
    (hcounted : h.ledger.Counted) (hbelow : h.ledger.summary.BelowPeaks) :
    h.ledger.summary.Raises h'.ledger.summary := by
  cases hh with
  | early => exact hbelow.raises
  | rejected => exact hbelow.raises
  | condemned _ _ hlive => exact hbelow.raises_deallocate (hcounted.covers hlive)
  | @allocated n outerSize outer c origin m m' _ hK hm hn hsize hlimit hcall =>
    obtain ⟨hvalid', houter, howned⟩ :=
      R.of_malloc hvalid hm (Word.pos_of_add? hsize hn) hcall
    have hB := R.apart hvalid'
    rw [howned] at hB
    exact hbelow.raises_of_charged (hs.summary_recordMalloc (t := ⟨h.ledger, m'.memory⟩) henabled
      hcounted houter hB hsize c origin).2
  | unresized => exact hbelow.raises
  | @resized p n outerSize outer b origin m m' _ found hK hm hlive hn hsize hlimit hcall hfound =>
    obtain ⟨-, hcharged⟩ :=
      hs.summary_resized henabled hvalid hcounted hlive hm hn hsize hcall origin
    have hretired := hbelow.deallocate (hcounted.covers hlive)
    exact (hretired.raises_of_charged hcharged).of_deallocate
  | released _ _ hlive => exact hbelow.raises_deallocate (hcounted.covers hlive)

/-- What the resize of a pointer does to the summary: nothing, or the block there is taken out, or one
of its category comes for it. -/
theorem LedgerHeap.summary_realloc {h : LedgerHeap σ} (henabled : h.ledger.enabled = true)
    (hvalid : R.Valid h.early.machine.host)
    (hs : Secured (R.owned h.early.machine.host) h.early.blocks h.ledger.live)
    (hcounted : h.ledger.Counted) (p n : UInt64) (c : Category) (origin : Origin) :
    let summary := ((realloc (some p) n c origin).run h).state.ledger.summary
    summary = h.ledger.summary ∨ ∃ b, h.ledger.live.get? p = some b ∧
      (summary = h.ledger.summary.deallocate b.category b.size ∨ b.category = c ∧
        (h.ledger.summary.deallocate c b.size).Fits c (Word.max n 1) ∧
        summary = (h.ledger.summary.deallocate c b.size).charge c (Word.max n 1)) := by
  dsimp only
  cases hearly : h.early.blocks.contains p with
  | true =>
    rw [run_realloc_early hearly]
    exact .inl rfl
  | false =>
    rw [run_realloc_tracked henabled hearly]
    cases hsize : Word.add? (Word.max n 1) h.ledger.overhead with
    | none =>
      rw [reallocTracked_tooLarge hsize]
      exact .inl rfl
    | some outerSize =>
      cases hlive : h.ledger.live.get? p with
      | none =>
        rw [reallocTracked_notLive henabled hsize hlive]
        exact .inl rfl
      | some b =>
        refine Or.imp_right (fun hb => ⟨b, rfl, hb⟩) ?_
        cases hkind : Ledger.inspectForResize h.memory p b c with
        | error kind =>
          rw [reallocTracked_damaged henabled hsize hlive hkind]
          exact .inr (.inl rfl)
        | ok u =>
          rw [reallocTracked_intact henabled hsize hlive hkind]
          obtain rfl := Ledger.category_of_inspectForResize hkind
          have houterOf : h.ledger.outerOf p = outerOf p := if_pos henabled
          cases resizeRemoved_resizes p b (Word.max n 1) outerSize b.category origin h with
          | unasked hstate =>
            rw [hstate.trans (revived_takenOut hlive (h.takenOut p b).early.machine)]
            exact .inl rfl
          | refused hcall hrun =>
            rw [hrun, revived_takenOut hlive]
            exact .inl rfl
          | @granted outer m _ hcall hrun =>
            rw [houterOf] at hcall
            obtain ⟨mem, found, -, hstate⟩ := state_recordResized
              ((h.takenOut p b).keptHash p (Word.min b.size (Word.max n 1))) p b.size outer
              (Word.max n 1) b.category origin ((h.retire p b).setMachine m)
            obtain ⟨hfits, hcharged⟩ := hs.summary_resized
              (m := (h.takenOut p b).early.machine) henabled hvalid hcounted hlive rfl
              (Word.max_one_pos n) hsize hcall origin
            rw [hrun, hstate]
            exact .inr (hcharged.imp_right fun hcharged => ⟨rfl, hfits, hcharged⟩)

/-! ## Runs of a heap -/

omit [HostAllocator σ] in
theorem Heap.ledger?_setMemory (mem : Memory) (h : Heap σ) :
    (h.setMemory mem).ledger? = h.ledger? := by
  cases h <;> rfl

namespace HeapCall

/-- What a heap relies on whatever its ledger is to track: without a ledger, only blocks of its own
are given to it. -/
def Owned : HeapCall → Heap σ → Prop
  | realloc (some p) _ _ _, .early h => h.blocks.contains p = true
  | free (some p), .early h => h.blocks.contains p = true
  | _, _ => True

/-- Each call is given its blocks by the heap. -/
def OwnedRun : List HeapCall → Heap σ → Prop
  | [], _ => True
  | call :: calls, h => call.Owned h ∧ OwnedRun calls (call.perform h)

variable {call : HeapCall} {calls first second : List HeapCall} {h : Heap σ}

theorem ownedRun_append :
    OwnedRun (first ++ second) h ↔ OwnedRun first h ∧ OwnedRun second (run first h) := by
  induction first generalizing h with
  | nil => exact (iff_of_eq (true_and _)).symm
  | cons call first ih => exact (and_congr_right fun _ => ih).trans and_assoc.symm

omit [HostAllocator σ] in
theorem Owned.proper_or_install (howned : call.Owned h) : call.Proper h ∨
    ∃ config policy, call = .install config policy ∧ config.tracking.enabled = false := by
  cases call with
  | install config policy =>
    cases htracking : config.tracking.enabled with
    | true => exact .inl htracking
    | false => exact .inr ⟨config, policy, rfl, htracking⟩
  | realloc p n c origin => cases p <;> cases h <;> exact .inl howned
  | free p => cases p <;> cases h <;> exact .inl howned
  | malloc => exact .inl trivial
  | duplicate => exact .inl trivial
  | overwrite => exact .inl trivial

/-- A ledger that tracks nothing stays as it is. -/
theorem ledger?_perform_untracked {h : LedgerHeap σ} (henabled : h.ledger.enabled = false)
    (call : HeapCall) : (call.perform (.ready h)).ledger? = some h.ledger := by
  have hmalloc (n : UInt64) (c : Category) (origin : Origin) :
      ((Heap.malloc n c origin).run (.ready h)).state.ledger? = some h.ledger :=
    congrArg some (UserStep.ledger_malloc henabled n c origin)
  cases call with
  | malloc n c origin => exact hmalloc n c origin
  | duplicate text c origin =>
    have hcopied := hmalloc (UInt64.ofNat (text ++ [0]).length) c origin
    show ((Heap.duplicate text c origin).run (.ready h)).state.ledger? = _
    unfold Heap.duplicate
    dsimp only
    cases hresult : ((Heap.malloc (UInt64.ofNat (text ++ [0]).length) c origin).run
        (.ready h)).result with
    | error e =>
      rw [Op.state_bind_of_error hresult]
      exact hcopied
    | ok answer =>
      rw [Op.state_bind_of_ok hresult]
      cases answer with
      | none => exact hcopied
      | some p => exact (Heap.ledger?_setMemory _ _).trans hcopied
  | realloc p n c origin =>
    cases p with
    | none => exact hmalloc n c origin
    | some p => exact congrArg some (UserStep.ledger_realloc henabled p n c origin)
  | free p =>
    cases p with
    | none => rfl
    | some p => exact congrArg some (UserStep.ledger_free henabled p)
  | install config policy => rfl
  | overwrite mem => rfl

end HeapCall

namespace Heap

variable {h : Heap σ} {call : HeapCall} {calls : List HeapCall}

/-- The summary of the ledger, if there is one. -/
def summary? (h : Heap σ) : Option MallocSummary :=
  h.ledger?.map (·.summary)

/-- Where a run has got to: the host's blocks and the summary are in order, or nothing is tracked. -/
def Watched (R : HostContract σ) (h : Heap σ) : Prop :=
  h.Sound R ∧ h.Counted ∨ ∃ l, h.ledger? = some l ∧ l.enabled = false

theorem Change.advance {h' : Heap σ} (hh : h.Change K h') (hs : h.Sound R) (hcounted : h.Counted) :
    MallocSummary.Advance h.summary? h'.summary? := by
  cases hh with
  | early => exact .absent
  | granted => exact .absent
  | installed => exact .fresh
  | ready hh =>
    exact .raised fun hbelow =>
      hh.raises (hs.enabled _ rfl) hs.valid hs.secured (hcounted _ rfl) hbelow

theorem Watched.perform (h' : h.Watched R) (howned : call.Owned h) :
    (call.perform h).Watched R ∧ MallocSummary.Advance h.summary? (call.perform h).summary? := by
  rcases h' with ⟨hs, hcounted⟩ | ⟨l, hl, henabled⟩
  · rcases howned.proper_or_install with hproper | ⟨config, policy, rfl, htracking⟩
    · have hchange := call.perform_change hs.enabled hproper
      exact ⟨.inl ⟨hs.perform hproper, hcounted.change hs hchange⟩, hchange.advance hs hcounted⟩
    · cases h with
      | early e => exact ⟨.inr ⟨_, rfl, htracking⟩, .fresh⟩
      | ready h => exact ⟨.inl ⟨hs, hcounted⟩, .raised MallocSummary.BelowPeaks.raises⟩
  · cases h with
    | early e => cases hl
    | ready h =>
      obtain rfl := Option.some.inj hl
      have hsame := HeapCall.ledger?_perform_untracked henabled call
      refine ⟨.inr ⟨_, hsame, henabled⟩, ?_⟩
      rw [summary?, summary?, hsame]
      exact .raised MallocSummary.BelowPeaks.raises

theorem Watched.run (h' : h.Watched R) (howned : HeapCall.OwnedRun calls h) :
    (HeapCall.run calls h).Watched R := by
  induction calls generalizing h with
  | nil => exact h'
  | cons call calls ih => exact ih (h'.perform howned.1).1 howned.2

theorem watched_create {m : Machine σ} (hvalid : R.Valid m.host) : (create m).Watched R :=
  .inl ⟨sound_create hvalid, counted_early _⟩

/-- The peaks of a heap in the course of calls. -/
theorem peaks {m : Machine σ} (hvalid : R.Valid m.host)
    (howned : HeapCall.OwnedRun calls (create m)) :
    Peaks (fun first => (HeapCall.run first (create m)).summary?) calls := by
  refine .of_advance .absent fun before call hcall => ?_
  obtain ⟨rest, rfl⟩ := hcall
  rw [HeapCall.ownedRun_append, HeapCall.ownedRun_append] at howned
  obtain ⟨⟨hbefore, hcall, -⟩, -⟩ := howned
  rw [HeapCall.run_append]
  exact (((watched_create hvalid).run hbefore).perform hcall).2

/-- The resize of a pointer raises no peak but to the balance of the block there and the new one. -/
theorem Watched.realloc (h' : h.Watched R) {l l' : Ledger} {p n : UInt64} {c : Category}
    {origin : Origin} (hl : h.ledger? = some l)
    (hl' : ((HeapCall.realloc (some p) n c origin).perform h).ledger? = some l')
    (hbelow : l.summary.BelowPeaks) :
    l.summary.SamePeaks l'.summary ∨ ∃ b, l.live.get? p = some b ∧ b.category = c ∧
      l.summary.Exchange l'.summary c b.size (Word.max n 1) := by
  cases h with
  | early e => cases hl
  | ready h =>
    obtain rfl := Option.some.inj hl
    rcases h' with ⟨hs, hcounted⟩ | ⟨l, hl, henabled⟩
    · have hledger : ((LedgerHeap.realloc (some p) n c origin).run h).state.ledger = l' :=
        Option.some.inj hl'
      have hcounted : h.ledger.Counted := hcounted _ rfl
      have hsummary := LedgerHeap.summary_realloc (hs.enabled _ rfl) hs.valid hs.secured hcounted p n
        c origin
      rw [hledger] at hsummary
      rcases hsummary with hsame | ⟨b, hlive, hgone | ⟨rfl, hfits, hsummary⟩⟩
      · exact .inl (hsame ▸ MallocSummary.samePeaks_refl _)
      · exact .inl (hgone ▸ MallocSummary.samePeaks_deallocate _ _ _)
      · exact .inr ⟨b, hlive, rfl, hsummary ▸ hbelow.exchange (hcounted.covers hlive) hfits⟩
    · obtain rfl := Option.some.inj hl
      rw [HeapCall.ledger?_perform_untracked henabled] at hl'
      obtain rfl := Option.some.inj hl'
      exact .inl (MallocSummary.samePeaks_refl _)

end Heap

/-! ## Runs from nothing -/

/-- In every run of a ledger that starts empty, whatever blocks are under way, and in every run of a
heap that starts without one, the peaks of each category and of all blocks are at any point the
highest numbers that they had up to then. They are never below the numbers of the moment and never
go down. Where a block is resized, in the ledger by taking it out of the counters and recording the new
one, no peak of a count changes, and a peak of bytes goes up only to what there is with the new block
in place of the old. -/
theorem peaks_are_highest :
    (∀ (config : MemoryConfig) (policy : CorruptionPolicy) (memory : Memory)
      (calls : List LedgerCall),
      let after (first : List LedgerCall) : Resizing :=
        LedgerCall.run first (Resizing.create config policy memory)
      LedgerCall.ProperRun calls (after []) →
        Peaks (fun first => some (after first).summary) calls ∧
        ∀ before i outer n origin rest removed (b : LiveBlock),
          calls = before ++ .deaccount i :: .record outer n b.category origin :: rest →
          (after before).pending[i]? = some removed → removed.block = some b →
          (after before).summary.Exchange
            (after (before ++ [.deaccount i, .record outer n b.category origin])).summary
            b.category b.size n) ∧
    ∀ (σ : Type) [HostAllocator σ] (R : HostContract σ) (m : Machine σ) (calls : List HeapCall),
      let after (first : List HeapCall) : Heap σ := HeapCall.run first (Heap.create m)
      R.Valid m.host → HeapCall.OwnedRun calls (after []) →
        Peaks (fun first => (after first).summary?) calls ∧
        ∀ before p n c origin rest l l',
          calls = before ++ .realloc (some p) n c origin :: rest →
          (after before).ledger? = some l →
          (after (before ++ [.realloc (some p) n c origin])).ledger? = some l' →
          l.summary.SamePeaks l'.summary ∨ ∃ b, l.live.get? p = some b ∧ b.category = c ∧
            l.summary.Exchange l'.summary c b.size (Word.max n 1) := by
  constructor
  · intro config policy memory calls after hproper
    have hpeaks := Resizing.peaks hproper
    refine ⟨hpeaks, fun before i outer n origin rest removed b hcalls hi hblock => ?_⟩
    have hprefix : before <+: calls := hcalls ▸ List.prefix_append ..
    have hbelow := hpeaks.belowPeaks hprefix rfl
    rw [hcalls, LedgerCall.properRun_append] at hproper
    obtain ⟨hbefore, hdeaccount, hrecord, -⟩ := hproper
    have hsteady := (Resizing.steady_create config policy memory).run hbefore
    show (after before).summary.Exchange (LedgerCall.run _ _).summary _ _ _
    rw [LedgerCall.run_append]
    exact hsteady.exchange hbelow ⟨hdeaccount, hrecord, trivial⟩ hi hblock
  · intro σ _ R m calls after hvalid howned
    have hpeaks := Heap.peaks hvalid howned
    refine ⟨hpeaks, fun before p n c origin rest l l' hcalls hl hl' => ?_⟩
    have hprefix : before <+: calls := hcalls ▸ List.prefix_append ..
    have hsummary : (after before).summary? = some l.summary := by
      rw [Heap.summary?, hl]
      rfl
    have hbelow : l.summary.BelowPeaks := hpeaks.belowPeaks hprefix hsummary
    rw [hcalls, HeapCall.ownedRun_append] at howned
    have hwatched := (Heap.watched_create hvalid).run howned.1
    have hl' : (HeapCall.run (before ++ [.realloc (some p) n c origin]) (Heap.create m)).ledger? =
        some l' := hl'
    rw [HeapCall.run_append] at hl'
    exact hwatched.realloc hl hl' hbelow

/-- A block of a hundred bytes goes, and one of three hundred bytes comes for it. -/
def swappedRun : List LedgerCall :=
  [.record 0x1000 100 .gc ⟨⟨"src/heap.rs", 3, 5⟩, .empty⟩, .markDead 0x1010 .gc, .deaccount 0,
    .record 0x5000 300 .gc ⟨⟨"src/heap.rs", 3, 5⟩, .empty⟩]

/-- A block from before the ledger, two blocks of which one grows, and the other is released. -/
def grownCalls : List HeapCall :=
  [.malloc 8 .gc ⟨⟨"src/heap.rs", 3, 5⟩, .empty⟩, .install { tracking := .summary } .keep,
    .malloc 100 .gc ⟨⟨"src/heap.rs", 3, 5⟩, .empty⟩, .malloc 50 .gc ⟨⟨"src/heap.rs", 7, 9⟩, .empty⟩,
    .realloc (some 0x100000000020) 180 .gc ⟨⟨"src/heap.rs", 3, 5⟩, .empty⟩,
    .free (some 0x1000000000a0)]

/-- The peaks are 300 and 230 bytes. With the new blocks counted before the old ones are taken out, they
would be 400 and 330. -/
theorem peaks_are_highest_resized :
    let ledgerAfter (first : List LedgerCall) : Resizing :=
      LedgerCall.run first (Resizing.create { tracking := .summary } .abort Memory.zero)
    let heapAfter (first : List HeapCall) : Heap FreshAllocator :=
      HeapCall.run first (Heap.create ⟨{}, Memory.zero⟩)
    LedgerCall.ProperRun swappedRun (ledgerAfter []) ∧
      Peaks (fun first => some (ledgerAfter first).summary) swappedRun ∧
      (ledgerAfter swappedRun).summary.total = ⟨1, 300, 1, 300⟩ ∧
      HeapCall.OwnedRun grownCalls (heapAfter []) ∧
      Peaks (fun first => (heapAfter first).summary?) grownCalls ∧
      (heapAfter grownCalls).summary?.map (·.total) = some ⟨1, 180, 2, 230⟩ := by
  intro ledgerAfter heapAfter
  have hpending : 0 < (ledgerAfter (swappedRun.take 2)).pending.length := by decide +kernel
  have hproper : LedgerCall.ProperRun swappedRun (ledgerAfter []) :=
    ⟨⟨rfl, _, rfl⟩, trivial, hpending, ⟨by decide +kernel, 0x5010, by decide +kernel⟩, trivial⟩
  have howned : HeapCall.OwnedRun grownCalls (heapAfter []) :=
    ⟨trivial, trivial, trivial, trivial, trivial, trivial, trivial⟩
  obtain ⟨hledger, hheap⟩ := peaks_are_highest
  exact ⟨hproper, (hledger _ _ _ _ hproper).1, by decide +kernel, howned,
    (hheap FreshAllocator FreshAllocator.contract ⟨{}, Memory.zero⟩ _
      FreshAllocator.wellFormed_empty howned).1, by decide +kernel⟩

end HostServices
