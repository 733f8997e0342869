import HostServices.Proofs.Heap.Owned
import HostServices.Proofs.Host.Fresh
import HostServices.Proofs.Host.Journal

/-!
# The calls that a heap makes of its host

A heap over a host with a journal, so that the calls it makes can be read there. What `Heap.Sound`
says for the contract of the journal is that they are lawful; for the contract that withholds a
condemned block, that the block is in none of them. Together with what becomes of a pointer to no
block this is `hostCalls_lawful`.
-/

namespace HostServices.Heap

open HostCall (Lawful)

variable {σ : Type} [HostAllocator σ] {R : HostContract σ} {K : Set SiteKey}

/-- The calls made of the host, the latest first. -/
def hostCalls (h : Heap (Journal σ)) : List HostCall :=
  h.base.machine.host.calls

/-- The corruptions found so far. -/
def reports (h : Heap σ) : List Corruption :=
  h.ledger?.elim [] (·.reports)

/-- The heap over a host that has not been called. -/
def fresh (s : σ) (mem : Memory) : Heap (Journal σ) :=
  create ⟨⟨s, []⟩, mem⟩

/-! ## Condemned blocks -/

/-- A report that condemns a block takes its record, and nothing else happens. -/
structure Condemned (h h' : LedgerHeap σ) (c : Corruption) : Prop where
  host : h'.early.machine.host = h.early.machine.host
  blocks : h'.early.blocks = h.early.blocks
  found : ∃ b, h.ledger.live.get? c.block = some b
  live : h'.ledger.live = h.ledger.live.erase c.block

theorem reports_ready {h h' : LedgerHeap σ} (hh : h.Change K h') (henabled : h.ledger.enabled = true) :
    ∃ found, h'.ledger.reports = h.ledger.reports ++ found ∧
      ∀ c ∈ found, c.kind.condemns = true → Condemned h h' c := by
  cases hh with
  | early => exact ⟨[], (List.append_nil _).symm, List.forall_mem_nil _⟩
  | @rejected c _ hc hlive =>
    refine ⟨[c], rfl, fun c' hc' hcondemns => ?_⟩
    obtain rfl := List.mem_singleton.1 hc'
    rw [hc] at hcondemns
    cases hcondemns
  | @condemned c b _ hc hlive =>
    refine ⟨[c], rfl, fun c' hc' _ => ?_⟩
    obtain rfl := List.mem_singleton.1 hc'
    exact ⟨rfl, rfl, ⟨b, hlive⟩, rfl⟩
  | @allocated n outerSize outer c origin m m' =>
    refine ⟨[], ?_, List.forall_mem_nil _⟩
    rw [List.append_nil]
    exact (TrackedMemory.config_recordMalloc (t := ⟨h.ledger, m'.memory⟩) henabled outer n c origin).2
  | unresized => exact ⟨[], (List.append_nil _).symm, List.forall_mem_nil _⟩
  | @resized p n outerSize outer b origin m m' _ found hK hm hlive hn hsize hlimit hcall hfound =>
    have hreports := (TrackedMemory.config_recordMalloc (t := ⟨h.ledger.retire p b, m'.memory⟩)
      henabled outer n b.category origin).2
    refine ⟨found, congrArg (· ++ found) hreports, fun c hc hcondemns => ?_⟩
    rw [hfound c hc] at hcondemns
    cases hcondemns
  | released => exact ⟨[], (List.append_nil _).symm, List.forall_mem_nil _⟩

/-- A heap whose block was condemned relies on its host even if the block is withheld from it. -/
theorem Sound.withholding {h h' : LedgerHeap (Journal σ)} {c : Corruption}
    (hs : Sound R.journal (.ready h)) (hs' : Sound R.journal (.ready h')) (hc : Condemned h h' c) :
    Sound (R.withholding (BlockHeader.outerOf c.block) (hostCalls (.ready h))) (.ready h') := by
  obtain ⟨hhost, hblocks, ⟨b, hb⟩, hlive⟩ := hc
  have hvalid : R.journal.Valid h.early.machine.host := hs.valid
  have hsecured : Secured (R.journal.owned h.early.machine.host) h.early.blocks h.ledger.live :=
    hs.secured
  obtain ⟨n, hn, -⟩ := hsecured.liveOwned hb
  refine ⟨hs'.enabled, ⟨hs'.valid, ?_, [], congrArg (·.calls) hhost, List.forall_mem_nil _⟩, ?_⟩
  · show R.journal.owned h'.early.machine.host _ ≠ none
    rw [hhost, hn]
    exact Option.some_ne_none n
  · show Secured ((R.journal.owned h'.early.machine.host).drop _) h'.early.blocks h'.ledger.live
    rw [hhost, hblocks, hlive]
    exact hsecured.release hb

theorem reports_change {h h' : Heap σ} (hh : h.Change K h') (henabled : h.Enabled) :
    ∃ found, h'.reports = h.reports ++ found ∧ ∀ c ∈ found, c.kind.condemns = true →
      ∃ l l', h = .ready l ∧ h' = .ready l' ∧ Condemned l l' c := by
  cases hh with
  | early => exact ⟨[], rfl, List.forall_mem_nil _⟩
  | granted => exact ⟨[], rfl, List.forall_mem_nil _⟩
  | installed => exact ⟨[], rfl, List.forall_mem_nil _⟩
  | @ready l l' hl =>
    obtain ⟨found, hreports, hfound⟩ := reports_ready hl (henabled _ rfl)
    exact ⟨found, hreports, fun c hc hcondemns => ⟨l, l', rfl, rfl, hfound c hc hcondemns⟩⟩

/-! ## Pointers to no block -/

section notLive

variable {h : LedgerHeap σ} {p : UInt64} (henabled : h.ledger.enabled = true)
  (hearly : h.early.blocks.contains p = false) (hlive : h.ledger.live.get? p = none)
include henabled hearly hlive

theorem free_notLive :
    (HeapCall.free (some p)).perform (.ready h) = .ready (h.noted ⟨.free, p, .notLive⟩) := by
  show Heap.ready ((LedgerHeap.free (some p)).run h).state = _
  rw [LedgerHeap.free_notLive henabled hearly hlive]

theorem realloc_notLive (n : UInt64) (c : Category) (origin : Origin)
    (hsize : (Word.max n 1).toNat + h.ledger.overhead.toNat < 2 ^ 64) :
    (HeapCall.realloc (some p) n c origin).perform (.ready h) =
      .ready (h.noted ⟨.realloc, p, .notLive⟩) := by
  show Heap.ready ((LedgerHeap.realloc (some p) n c origin).run h).state = _
  rw [LedgerHeap.run_realloc_tracked henabled hearly,
    LedgerHeap.reallocTracked_notLive henabled (Word.add?_of_lt hsize) hlive]

end notLive

/-! ## Lawful calls -/

/-- Whatever pointers a heap is given and whatever is written into memory: the host is only asked
to free or resize blocks that it handed out and that were not freed or resized since, so none is
freed twice; a block whose corruption was reported is in no later call; and a pointer to no block
is reported, and changes nothing else. -/
theorem hostCalls_lawful (R : HostContract σ) {s : σ} (hvalid : R.Valid s) (mem : Memory)
    (calls : List HeapCall) (hproper : HeapCall.ProperRun calls (fresh s mem)) :
    Lawful (HeapCall.run calls (fresh s mem)).hostCalls ∧
      (∀ p later between earlier,
        (HeapCall.run calls (fresh s mem)).hostCalls =
            later ++ .free p :: (between ++ .free p :: earlier) →
          ∃ call ∈ between, call.answer? = some p) ∧
      (∀ before call after, calls = before ++ call :: after →
        ∃ found, (call.perform (HeapCall.run before (fresh s mem))).reports =
            (HeapCall.run before (fresh s mem)).reports ++ found ∧
          ∀ c ∈ found, c.kind.condemns = true →
            ∃ later, (HeapCall.run calls (fresh s mem)).hostCalls =
                later ++ (HeapCall.run before (fresh s mem)).hostCalls ∧
              ∀ call ∈ later, call.takes? ≠ some (BlockHeader.outerOf c.block)) ∧
      ∀ h, HeapCall.run calls (fresh s mem) = .ready h → ∀ p, h.early.blocks.contains p = false →
        h.ledger.live.get? p = none →
          (HeapCall.free (some p)).perform (.ready h) = .ready (h.noted ⟨.free, p, .notLive⟩) ∧
            ∀ n c origin, (Word.max n 1).toNat + h.ledger.overhead.toNat < 2 ^ 64 →
              (HeapCall.realloc (some p) n c origin).perform (.ready h) =
                .ready (h.noted ⟨.realloc, p, .notLive⟩) := by
  have hcreate : (fresh s mem).Sound R.journal := by
    refine sound_create ⟨hvalid, trivial, ?_⟩
    exact fun p hp => absurd hp (Set.notMem_empty p)
  have hsound : (HeapCall.run calls (fresh s mem)).Sound R.journal := hcreate.run hproper
  have hlawful : Lawful (HeapCall.run calls (fresh s mem)).hostCalls := hsound.valid.2.1
  refine ⟨hlawful, fun p later between earlier heq => ?_, fun before call after hcalls => ?_,
    fun h hh p hearly hlive => ?_⟩
  · rw [heq] at hlawful
    exact hlawful.answered_between
  · subst hcalls
    obtain ⟨hbefore, hcall, hafter⟩ := HeapCall.properRun_append.1 hproper
    have hs := hcreate.run hbefore
    have hs' := hs.perform hcall
    obtain ⟨found, hreports, hfound⟩ := reports_change (call.perform_change hs.enabled hcall) hs.enabled
    refine ⟨found, hreports, fun c hc hcondemns => ?_⟩
    obtain ⟨l, l', hl, hl', hcond⟩ := hfound c hc hcondemns
    -- from here on, the block may as well be withheld
    have hwithheld : (call.perform (HeapCall.run before (fresh s mem))).Sound
        (R.withholding (BlockHeader.outerOf c.block) (HeapCall.run before (fresh s mem)).hostCalls) := by
      rw [hl'] at hs' ⊢
      rw [hl] at hs ⊢
      exact hs.withholding hs' hcond
    have hend := (hwithheld.run hafter).valid
    obtain ⟨-, -, later, hlater, htakes⟩ := hend
    refine ⟨later, ?_, htakes⟩
    rw [HeapCall.run_append]
    exact hlater
  · have henabled : h.ledger.enabled = true := hsound.enabled _ (by rw [hh]; rfl)
    exact ⟨free_notLive henabled hearly hlive, realloc_notLive henabled hearly hlive⟩

/-- A run over an allocator without reuse: a block from before the ledger, and one with a record,
which is overwritten, freed twice and resized; then an address that is no block's. -/
def abusiveRun : List HeapCall :=
  [.malloc 24 .gc ⟨⟨"src/boot.rs", 3, 5⟩, .empty⟩, .install { tracking := .detail } .keep,
    .malloc 100 .compiler ⟨⟨"src/jit.rs", 7, 9⟩, .empty⟩, .overwrite Memory.zero,
    .free (some 0x100000000030), .free (some 0x100000000030),
    .realloc (some 0x100000000030) 200 .compiler ⟨⟨"src/jit.rs", 8, 9⟩, .empty⟩,
    .free (some 0x100000000000), .free (some 0x1234)]

theorem hostCalls_lawful_abusiveRun :
    FreshAllocator.contract.Valid {} ∧
      HeapCall.ProperRun abusiveRun (fresh ({} : FreshAllocator) Memory.zero) ∧
      Lawful (HeapCall.run abusiveRun (fresh ({} : FreshAllocator) Memory.zero)).hostCalls := by
  have hproper : HeapCall.ProperRun abusiveRun (fresh ({} : FreshAllocator) Memory.zero) :=
    ⟨trivial, rfl, trivial, trivial, trivial, trivial, trivial, trivial, trivial, trivial⟩
  have hvalid : FreshAllocator.contract.Valid {} := FreshAllocator.wellFormed_empty
  exact ⟨hvalid, hproper,
    (hostCalls_lawful FreshAllocator.contract hvalid Memory.zero abusiveRun hproper).1⟩

end HostServices.Heap
