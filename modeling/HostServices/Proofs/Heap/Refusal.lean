import HostServices.Proofs.Heap.Intact

/-!
# Refused requests

A request for a block that is refused without a report leaves the heap as it was
(`refused_leaves_heap`): the ledger with its counters and peaks, the blocks from before it, and the
bytes of every block that the host owns. So a block that a resize was refused for is as good as
before.
-/

namespace HostServices

open BlockHeader (outerOf)

variable {σ : Type} [HostAllocator σ] {R : HostContract σ}

/-- What a call answers to a request for a block; the others are no requests. -/
def HeapCall.answer? : HeapCall → Heap σ → Option (Except Stop (Option UInt64))
  | malloc n c origin, h => some ((Heap.malloc n c origin).run h).result
  | duplicate text c origin, h => some ((Heap.duplicate text c origin).run h).result
  | realloc p n c origin, h => some ((Heap.realloc p n c origin).run h).result
  | free _, _ | install .., _ | overwrite _, _ => none

/-- A resize that the host refuses leaves blocks without a record as they were. -/
theorem EarlyHeap.realloc_none {h : EarlyHeap σ} {p k n : UInt64} (hcareful : R.Careful)
    (hvalid : R.Valid h.machine.host) (hk : R.owned h.machine.host p = some k)
    (hnone : ((realloc (some p) n).run h).result = .ok none) :
    ∃ m, ((realloc (some p) n).run h).state = { h with machine := m } ∧
      R.owned m.host = R.owned h.machine.host ∧
      (R.owned h.machine.host).SameBytes h.machine.memory m.memory := by
  have hpos := Word.max_one_pos n
  rcases hcall : HostAllocator.realloc p (Word.max n 1) h.machine with ⟨_ | q, m⟩
  · rw [realloc_refused hcall]
    have howned := (R.of_realloc hvalid rfl (hk ▸ Option.some_ne_none k) hpos hcall).2
    exact ⟨m, rfl, howned, hcareful.unresized hvalid hk hpos hcall⟩
  · rw [realloc_granted hcall] at hnone
    cases hnone

namespace LedgerHeap

variable {h : LedgerHeap σ} {p n : UInt64} {c : Category} {origin : Origin}

omit [HostAllocator σ] in
/-- One more report is not what was there. -/
theorem reports_noted_ne (h : LedgerHeap σ) (c : Corruption) :
    (h.noted c).ledger.reports ≠ h.ledger.reports := by
  intro heq
  have hlength := congrArg List.length heq
  simp [noted, Ledger.noted, Ledger.addReports] at hlength

variable (hcareful : R.Careful) (hs : Heap.Sound R (.ready h))
include hcareful hs

theorem malloc_untouched (hnone : ((malloc n c origin).run h).result = .ok none) :
    Heap.Untouched R (.ready h) (.ready ((malloc n c origin).run h).state) := by
  obtain ⟨huntouched, -⟩ | ⟨outer, outerSize, m, hf, -, hrun⟩ := malloc_cases hcareful hs n c origin
  · exact huntouched
  · rw [hrun] at hnone
    cases (hf.live_recordGranted hnone).1

/-- A block with a record is only handed to the host when it has passed its check, and a finding
would be among the reports. -/
theorem realloc_untouched (hnone : ((realloc (some p) n c origin).run h).result = .ok none)
    (hreports : ((realloc (some p) n c origin).run h).state.ledger.reports = h.ledger.reports) :
    Heap.Untouched R (.ready h) (.ready ((realloc (some p) n c origin).run h).state) ∧
      ((Word.max n 1).toNat + h.ledger.overhead.toNat < 2 ^ 64 →
        Heap.Good (.ready h) p ∧ ∀ b, h.ledger.live.get? p = some b → b.category = c) := by
  have henabled : h.ledger.enabled = true := hs.enabled _ rfl
  cases hp : h.early.blocks.contains p with
  | true =>
    obtain ⟨k, hk⟩ := Option.ne_none_iff_exists'.1 (hs.secured.earlyOwned hp)
    rw [run_realloc_early hp, run_onEarly] at hnone ⊢
    obtain ⟨m, hstate, howned, hsame⟩ :=
      EarlyHeap.realloc_none (h := h.early) hcareful hs.valid hk hnone
    rw [hstate]
    refine ⟨⟨rfl, howned, hsame⟩, fun _ => ⟨.inl hp, fun b hb => ?_⟩⟩
    exact absurd (hp.symm.trans (hs.secured.not_early hb (R.apart hs.valid))) nofun
  | false =>
    rw [run_realloc_tracked henabled hp] at hnone hreports ⊢
    cases hsize : Word.add? (Word.max n 1) h.ledger.overhead with
    | none =>
      rw [reallocTracked_tooLarge hsize]
      refine ⟨.refl _, fun hlt => ?_⟩
      rw [Word.add?_of_lt hlt] at hsize
      cases hsize
    | some outerSize =>
      cases hb : h.ledger.live.get? p with
      | none =>
        rw [reallocTracked_notLive henabled hsize hb] at hreports
        exact absurd hreports (reports_noted_ne h _)
      | some b =>
        cases hkind : Ledger.inspectForResize h.memory p b c with
        | error kind =>
          rw [reallocTracked_damaged henabled hsize hb hkind] at hreports
          exact absurd hreports (reports_noted_ne (h.retire p b) _)
        | ok u =>
          have hok := Ledger.inspectBlock_of_inspectForResize hkind
          obtain rfl := Ledger.category_of_inspectForResize hkind
          rw [reallocTracked_intact henabled hsize hb hkind] at hnone ⊢
          refine ⟨?_, fun _ => ⟨.inr ⟨b, hb, hok⟩, fun b' hb' => ?_⟩⟩
          · obtain ⟨huntouched, -⟩ | ⟨outer, m, hmoved, hrun⟩ :=
              resizeRemoved_cases hcareful hs hb hok (Word.max_one_pos n) hsize origin
            · exact huntouched
            · rw [hrun] at hnone
              cases hmoved.fresh.answer_recordResized (fun _ => hmoved.keptHash) hnone
          · rw [Option.some.inj hb']

end LedgerHeap

namespace Heap

variable {h h' : Heap σ} {p : UInt64}

theorem Untouched.live (hun : h.Untouched R h') : h'.live = h.live := by
  rw [hun.eq]
  cases h <;> rfl

theorem Untouched.blocks (hun : h.Untouched R h') : h'.base.blocks = h.base.blocks := by
  rw [hun.eq]
  cases h <;> rfl

theorem Untouched.ledger (hun : h.Untouched R h') : h'.ledger? = h.ledger? := by
  rw [hun.eq]
  cases h <;> rfl

/-- The bytes of a live block and those around it are as they were. -/
theorem Untouched.around (hun : h.Untouched R h') (hs : h.Sound R) {b : LiveBlock}
    (hb : h.live.get? p = some b) :
    Memory.SameBytes h.memory h'.memory (outerOf p) (b.size.toNat + 18) :=
  fun _ ha => hs.secured.around hb hun.bytes ha

theorem Untouched.good_iff (hun : h.Untouched R h') (hs : h.Sound R) : h'.Good p ↔ h.Good p := by
  have hcheck {b : LiveBlock} (hb : h.live.get? p = some b) :
      Ledger.inspectBlock h'.memory p b = Ledger.inspectBlock h.memory p b :=
    BlockHeader.inspectBlock_congr fun a ha =>
      hun.around hs hb a (BlockHeader.around_of_inBand (hs.secured.length_lt hb) ha)
  unfold Good
  rw [hun.blocks, hun.live]
  exact or_congr_right (exists_congr fun b => and_congr_right fun hb => by rw [hcheck hb])

/-- A heap that some run gets to. -/
def Reachable (R : HostContract σ) (h : Heap σ) : Prop :=
  ∃ m calls, R.Valid m.host ∧ HeapCall.ProperRun calls (create m) ∧ h = HeapCall.run calls (create m)

theorem Reachable.sound (hreach : h.Reachable R) : h.Sound R := by
  obtain ⟨m, calls, hvalid, hproper, rfl⟩ := hreach
  exact (sound_create hvalid).run hproper

section untouched

variable (hcareful : R.Careful) (hs : h.Sound R)
include hcareful hs

theorem malloc_untouched {n : UInt64} {c : Category} {origin : Origin}
    (hnone : ((malloc n c origin).run h).result = .ok none) :
    h.Untouched R ((malloc n c origin).run h).state := by
  cases h with
  | early e =>
    have hnone : ((EarlyHeap.malloc n).run e).result = .ok none := hnone
    show Untouched R (.early e) (.early ((EarlyHeap.malloc n).run e).state)
    rcases hcall : HostAllocator.malloc (Word.max n 1) e.machine with ⟨_ | p, m⟩
    · rw [EarlyHeap.malloc_refused hcall]
      exact .of_refused hcareful hs (Word.max_one_pos n) hcall
    · rw [(EarlyHeap.malloc_granted hcall).2] at hnone
      cases hnone
  | ready l => exact LedgerHeap.malloc_untouched hcareful hs hnone

/-- A text is only written to a block. -/
theorem duplicate_untouched {text : List UInt8} {c : Category} {origin : Origin}
    (hnone : ((duplicate text c origin).run h).result = .ok none) :
    h.Untouched R ((duplicate text c origin).run h).state := by
  unfold duplicate at hnone ⊢
  dsimp only at hnone ⊢
  cases hresult : ((malloc (UInt64.ofNat (text ++ [0]).length) c origin).run h).result with
  | error e =>
    rw [Op.result_bind_of_error hresult] at hnone
    cases hnone
  | ok answer =>
    rw [Op.result_bind_of_ok hresult] at hnone
    rw [Op.state_bind_of_ok hresult]
    cases answer with
    | none => exact malloc_untouched hcareful hs hresult
    | some p => cases hnone

theorem realloc_untouched {n : UInt64} {c : Category} {origin : Origin}
    (hproper : (HeapCall.realloc (some p) n c origin).Proper h)
    (hnone : ((realloc (some p) n c origin).run h).result = .ok none)
    (hreports : ((realloc (some p) n c origin).run h).state.reports = h.reports) :
    h.Untouched R ((realloc (some p) n c origin).run h).state ∧
      ((∀ l, h.ledger? = some l → (Word.max n 1).toNat + l.overhead.toNat < 2 ^ 64) →
        h.Good p ∧ ∀ b, h.live.get? p = some b → b.category = c) := by
  cases h with
  | early e =>
    refine ⟨?_, fun _ => ⟨.inl hproper, fun b hb => nomatch hb⟩⟩
    obtain ⟨k, hk⟩ := Option.ne_none_iff_exists'.1 (hs.secured.earlyOwned hproper)
    obtain ⟨m, hstate, howned, hsame⟩ :=
      EarlyHeap.realloc_none (h := e) hcareful hs.valid hk hnone
    show Untouched R (.early e) (.early ((EarlyHeap.realloc (some p) n).run e).state)
    rw [hstate]
    exact ⟨rfl, howned, hsame⟩
  | ready l =>
    obtain ⟨huntouched, hgood⟩ := LedgerHeap.realloc_untouched hcareful hs hnone hreports
    exact ⟨huntouched, fun hsize => hgood (hsize _ rfl)⟩

theorem request_untouched {call : HeapCall} (hproper : call.Proper h)
    (hnone : call.answer? h = some (.ok none)) (hreports : (call.perform h).reports = h.reports) :
    h.Untouched R (call.perform h) := by
  cases call with
  | malloc n c origin => exact malloc_untouched hcareful hs (Option.some.inj hnone)
  | duplicate text c origin => exact duplicate_untouched hcareful hs (Option.some.inj hnone)
  | realloc p n c origin =>
    cases p with
    | none =>
      cases h with
      | early e => exact malloc_untouched hcareful hs (c := c) (Option.some.inj hnone)
      | ready l => exact LedgerHeap.malloc_untouched hcareful hs (Option.some.inj hnone)
    | some p => exact (realloc_untouched hcareful hs hproper (Option.some.inj hnone) hreports).1
  | free p => cases hnone
  | install config policy => cases hnone
  | overwrite mem => cases hnone

end untouched

/-- A request that is answered without a block and without a report leaves the heap as it was, and
every block that was good can be released, and resized for its own category, without a report. The
block of a refused resize was good, unless its new length is beyond a word: then nobody looked. -/
theorem refused_leaves_heap {σ : Type} [HostAllocator σ] {R : HostContract σ} (hcareful : R.Careful)
    {h : Heap σ} (hreach : h.Reachable R) {call : HeapCall} (hproper : call.Proper h)
    (hnone : call.answer? h = some (.ok none)) (hreports : (call.perform h).reports = h.reports) :
    h.Untouched R (call.perform h) ∧ (call.perform h).ledger? = h.ledger? ∧
      (call.perform h).base.blocks = h.base.blocks ∧
      (∀ p b, h.live.get? p = some b →
        Memory.SameBytes h.memory (call.perform h).memory (outerOf p) (b.size.toNat + 18)) ∧
      (∀ p n c origin, call = .realloc (some p) n c origin →
        (∀ l, h.ledger? = some l → (Word.max n 1).toNat + l.overhead.toNat < 2 ^ 64) →
          h.Good p ∧ ∀ b, h.live.get? p = some b → b.category = c) ∧
      ∀ p, h.Good p →
        ((HeapCall.free (some p)).perform (call.perform h)).reports = h.reports ∧
          ∀ n c origin, (∀ b, h.live.get? p = some b → b.category = c) →
            ((HeapCall.realloc (some p) n c origin).perform (call.perform h)).reports = h.reports := by
  have hs := hreach.sound
  have hs' := hs.perform hproper
  have hun := request_untouched hcareful hs hproper hnone hreports
  refine ⟨hun, hun.ledger, hun.blocks, fun p b hb => hun.around hs hb, ?_, fun p hgood => ?_⟩
  · rintro p n c origin rfl
    exact (realloc_untouched hcareful hs hproper (Option.some.inj hnone) hreports).2
  · have hgood' := (hun.good_iff hs).2 hgood
    refine ⟨(hgood'.free hcareful hs').1.reports.trans hreports, fun n c origin hc => ?_⟩
    exact (hgood'.realloc hcareful hs' (hun.live.symm ▸ hc) n origin).reports.trans hreports

/-- A block at the level of call sites. -/
def oneMalloc : List HeapCall :=
  [.install { tracking := .detail } .keep, .malloc 40 .compiler ⟨⟨"src/jit.rs", 7, 9⟩, .empty⟩]

/-- A heap with one block over an allocator without reuse. -/
def oneBlock : Heap FreshAllocator :=
  HeapCall.run oneMalloc (create ⟨{}, Memory.zero⟩)

/-- A resize to more than the host serves. -/
def hugeResize : HeapCall :=
  .realloc (some 0x100000000010) 0x200000000000 .compiler ⟨⟨"src/jit.rs", 8, 9⟩, .empty⟩

theorem refused_leaves_heap_hugeResize :
    FreshAllocator.contract.Careful ∧ oneBlock.Reachable FreshAllocator.contract ∧
      hugeResize.Proper oneBlock ∧ hugeResize.answer? oneBlock = some (.ok none) ∧
      (hugeResize.perform oneBlock).reports = oneBlock.reports ∧ oneBlock.Good 0x100000000010 ∧
      ((HeapCall.free (some 0x100000000010)).perform (hugeResize.perform oneBlock)).reports =
        oneBlock.reports := by
  have hreach : oneBlock.Reachable FreshAllocator.contract :=
    ⟨⟨{}, Memory.zero⟩, oneMalloc, FreshAllocator.wellFormed_empty, ⟨rfl, trivial, trivial⟩, rfl⟩
  have hproper : hugeResize.Proper oneBlock := trivial
  have hnone : hugeResize.answer? oneBlock = some (.ok none) := rfl
  have hreports : (hugeResize.perform oneBlock).reports = oneBlock.reports := by decide +kernel
  obtain ⟨-, -, -, -, hgood, hquiet⟩ :=
    refused_leaves_heap FreshAllocator.careful_contract hreach hproper hnone hreports
  have hgood := (hgood 0x100000000010 0x200000000000 _ _ rfl fun l hl => by
    obtain rfl : l = _ := Option.some.inj hl.symm
    decide +kernel).1
  exact ⟨FreshAllocator.careful_contract, hreach, hproper, hnone, hreports, hgood, (hquiet _ hgood).1⟩

end Heap

end HostServices
