import HostServices.Proofs.BlockHeader
import HostServices.Proofs.Heap.Change
import HostServices.Proofs.Host.Contract

/-!
# What a call with a ledger touches

With a ledger, a call for a new block or for one that is not in the early table leaves that table
alone. What the ledger has about an address (`Ledger.about`) changes for the block that is passed
and for the one that is answered only (`Ledger.Spares`), and of the host's blocks the call takes
none but the one around the block that is passed (`requested_malloc`, `requested_realloc`,
`handedBack_free`). This holds of every ledger, whether it tracks blocks or not.
-/

namespace HostServices

namespace Ledger

variable {l l' l'' : Ledger} {p q outer : UInt64} {touched touched' : List UInt64}

/-! ## What a ledger has about an address -/

/-- The record at an address and the reports about it. -/
def about (l : Ledger) (p : UInt64) : Option LiveBlock × List Corruption :=
  (l.live.get? p, l.reports.filter (·.block = p))

/-- The ledger `l'` has what `l` has, but for what is about some addresses. -/
structure Spares (touched : List UInt64) (l l' : Ledger) : Prop where
  config : l'.config = l.config
  about : ∀ {p}, p ∉ touched → l'.about p = l.about p

namespace Spares

theorem refl (touched : List UInt64) (l : Ledger) : Spares touched l l :=
  ⟨rfl, fun _ => rfl⟩

theorem trans (h : Spares touched l l') (h' : Spares touched l' l'') : Spares touched l l'' :=
  ⟨h'.config.trans h.config, fun hp => (h'.about hp).trans (h.about hp)⟩

theorem mono (h : Spares touched l l') (hsub : touched ⊆ touched') : Spares touched' l l' :=
  ⟨h.config, fun hp => h.about fun hin => hp (hsub hin)⟩

end Spares

/-- What an address has does not depend on the counters. -/
theorem spares_counters (l : Ledger) (summary : MallocSummary) (sites : SiteTable) :
    Spares touched l { l with summary, sites } :=
  ⟨rfl, fun _ => rfl⟩

theorem spares_addReports {found : List Corruption} (hfound : ∀ c ∈ found, c.block ∈ touched) :
    Spares touched l (l.addReports found) where
  config := rfl
  about {p} hp := by
    have hnone : found.filter (·.block = p) = [] := by
      rw [List.filter_eq_nil_iff]
      intro c hc heq
      rw [decide_eq_true_eq] at heq
      exact hp (heq ▸ hfound c hc)
    show (l.live.get? p, (l.reports ++ found).filter (·.block = p)) = l.about p
    rw [List.filter_append, hnone, List.append_nil]
    rfl

theorem spares_noted {c : Corruption} (hc : c.block ∈ touched) : Spares touched l (l.noted c) :=
  spares_addReports (List.forall_mem_singleton.2 hc)

theorem spares_retire (hp : p ∈ touched) (b : LiveBlock) : Spares touched l (l.retire p b) where
  config := rfl
  about {q} hq := by
    have hne : p ≠ q := fun heq => hq (heq ▸ hp)
    show ((l.live.erase p).get? q, _) = l.about q
    rw [AddressMap.get?_erase, if_neg hne]
    rfl

theorem spares_insert (hp : p ∈ touched) (b : LiveBlock) :
    Spares touched l { l with live := l.live.insert p b } where
  config := rfl
  about {q} hq := by
    have hne : p ≠ q := fun heq => hq (heq ▸ hp)
    show ((l.live.insert p b).get? q, _) = l.about q
    rw [AddressMap.get?_insert, if_neg hne]
    rfl

/-! ## Blocks of the host -/

/-- Where the user's bytes start in the host block at `outer`. -/
def innerOf (l : Ledger) (outer : UInt64) : UInt64 :=
  if l.enabled then BlockHeader.innerOf outer else outer

section untracked

variable (henabled : l.enabled = false)
include henabled

theorem outerOf_untracked (p : UInt64) : l.outerOf p = p :=
  if_neg (Bool.eq_false_iff.1 henabled)

theorem innerOf_untracked (outer : UInt64) : l.innerOf outer = outer :=
  if_neg (Bool.eq_false_iff.1 henabled)

theorem overhead_untracked : l.overhead = 0 :=
  if_neg (Bool.eq_false_iff.1 henabled)

theorem add?_overhead_untracked (n : UInt64) : Word.add? n l.overhead = some n := by
  have hlt : n.toNat + (0 : UInt64).toNat < 2 ^ 64 := n.toNat_lt
  rw [overhead_untracked henabled, Word.add?_of_lt hlt, UInt64.add_zero]

theorem limitCheck_untracked (n : UInt64) (c : Category) : l.limitCheck n c = .ok () :=
  if_neg (Bool.eq_false_iff.1 henabled)

end untracked

section tracked

variable (henabled : l.enabled = true)
include henabled

theorem outerOf_tracked (p : UInt64) : l.outerOf p = BlockHeader.outerOf p :=
  if_pos henabled

theorem innerOf_tracked (outer : UInt64) : l.innerOf outer = BlockHeader.innerOf outer :=
  if_pos henabled

end tracked

theorem outerOf_innerOf (l : Ledger) (outer : UInt64) : l.outerOf (l.innerOf outer) = outer := by
  cases henabled : l.enabled with
  | false => rw [outerOf_untracked henabled, innerOf_untracked henabled]
  | true =>
    rw [outerOf_tracked henabled, innerOf_tracked henabled, BlockHeader.outerOf_innerOf]

/-- What a request does to the blocks `B` of the host and to the ledger `l`, and what it answers. It
may take all blocks but those of `kept` for it, and is about the addresses `old`. -/
inductive Request (l : Ledger) (B kept : Blocks) (old : List UInt64) :
    Except Stop (Option UInt64) → Blocks → Ledger → Prop
  | unmet {result : Except Stop (Option UInt64)} {l' : Ledger} (hl : l.Spares old l')
    (hresult : ∀ q, result ≠ .ok (some q)) : Request l B kept old result B l'
  | met {outer n : UInt64} {result : Except Stop (Option UInt64)} {l' : Ledger}
    (houter : kept outer = none) (hn : l.overhead < n) (hl : l.Spares (l.innerOf outer :: old) l')
    (hresult : ∀ answer, result = .ok answer → answer = some (l.innerOf outer)) :
    Request l B kept old result (kept.take outer n) l'

end Ledger

/-! ## Fresh blocks -/

/-- A block is recorded where the user's bytes start, if blocks are tracked, and the answer is that
address. -/
theorem TrackedMemory.spares_recordMalloc (t : TrackedMemory) (outer n : UInt64) (c : Category)
    (origin : Origin) :
    t.ledger.Spares [t.ledger.innerOf outer]
        ((recordMalloc outer n c origin).run t).state.ledger ∧
      ∀ inner, ((recordMalloc outer n c origin).run t).result = .ok inner →
        inner = t.ledger.innerOf outer := by
  cases henabled : t.ledger.enabled with
  | false =>
    rw [recordMalloc_untracked henabled, Ledger.innerOf_untracked henabled]
    exact ⟨.refl _ _, fun inner h => (Except.ok.inj h).symm⟩
  | true =>
    rw [Ledger.innerOf_tracked henabled]
    obtain ⟨summary, sites, ⟨marker, hstate, hresult⟩ | ⟨e, hstate, hresult⟩⟩ :=
      recordMalloc_cases henabled outer n c origin
    · rw [hstate, hresult]
      refine ⟨?_, fun inner h => (Except.ok.inj h).symm⟩
      exact (Ledger.spares_counters _ summary sites).trans
        (Ledger.spares_insert (List.mem_singleton_self _) _)
    · rw [hstate, hresult]
      exact ⟨Ledger.spares_counters _ summary sites, nofun⟩

namespace LedgerHeap

variable {σ : Type}

/-- What comes after the host has granted the block at `outer` leaves the host alone; the answer, if
there is one, is the block. -/
structure Records (h : LedgerHeap σ) (outer : UInt64) (old : List UInt64)
    (out : Outcome (LedgerHeap σ) (Option UInt64)) : Prop where
  blocks : out.state.early.blocks = h.early.blocks
  host : out.state.early.machine.host = h.early.machine.host
  ledger : h.ledger.Spares (h.ledger.innerOf outer :: old) out.state.ledger
  answer : ∀ answer, out.result = .ok answer → answer = some (h.ledger.innerOf outer)

section records

variable (h : LedgerHeap σ) (outer n : UInt64) (c : Category) (origin : Origin)

theorem records_recordGranted :
    h.Records outer [] ((recordGranted outer n c origin).run h) := by
  obtain ⟨hledger, hinner⟩ := TrackedMemory.spares_recordMalloc h.tracked outer n c origin
  cases hrecord : ((TrackedMemory.recordMalloc outer n c origin).run h.tracked).result with
  | ok inner =>
    obtain ⟨hstate, hresult⟩ := recordGranted_of_ok (h := h) rfl hrecord
    obtain rfl := hinner inner hrecord
    refine ⟨by rw [hstate]; rfl, by rw [hstate]; rfl, by rw [hstate]; exact hledger, fun a ha => ?_⟩
    rw [hresult] at ha
    exact (Except.ok.inj ha).symm
  | error e =>
    obtain ⟨hstate, hresult⟩ := recordGranted_of_error (h := h) rfl hrecord
    refine ⟨by rw [hstate]; rfl, by rw [hstate]; rfl, by rw [hstate]; exact hledger, fun a ha => ?_⟩
    rw [hresult] at ha
    cases ha

variable (before : Option UInt64) (old oldSize : UInt64)

/-- A resized block that is answered is the one that was recorded. -/
theorem result_recordResized {answer : Option UInt64}
    (hanswer : ((recordResized before old oldSize outer n c origin).run h).result = .ok answer) :
    ∃ new, ((TrackedMemory.recordMalloc outer n c origin).run h.tracked).result = .ok new ∧
      answer = some new := by
  cases hrecord : ((TrackedMemory.recordMalloc outer n c origin).run h.tracked).result with
  | error e =>
    rw [(recordResized_of_error rfl hrecord).2] at hanswer
    cases hanswer
  | ok new =>
    have hfirst : ((onTracked (TrackedMemory.recordMalloc outer n c origin)).run h).result =
        .ok new := hrecord
    refine ⟨new, rfl, ?_⟩
    unfold recordResized at hanswer
    rw [Op.result_bind_of_ok hfirst] at hanswer
    cases hverify : ((verifyCopy before old new (Word.min oldSize n)).run
        ((onTracked (TrackedMemory.recordMalloc outer n c origin)).run h).state).result with
    | error e =>
      rw [Op.result_bind_of_error hverify] at hanswer
      cases hanswer
    | ok u =>
      rw [Op.result_bind_of_ok hverify, Op.run_bind_of_run (run_fillGrown new oldSize n _),
        Op.result_bind_of_ok (run_catchPointer "realloc" new _).2] at hanswer
      exact (Except.ok.inj hanswer).symm

theorem records_recordResized :
    h.Records outer [old] ((recordResized before old oldSize outer n c origin).run h) := by
  obtain ⟨hledger, hinner⟩ := TrackedMemory.spares_recordMalloc h.tracked outer n c origin
  obtain ⟨mem, found, hfound, hstate⟩ :=
    state_recordResized before old oldSize outer n c origin h
  refine ⟨by rw [hstate]; rfl, by rw [hstate]; rfl, ?_, fun answer hanswer => ?_⟩
  · rw [hstate]
    refine (hledger.mono (List.cons_subset_cons _ (List.nil_subset _))).trans ?_
    refine Ledger.spares_addReports fun c hc => ?_
    rw [(hfound c hc).2]
    exact List.mem_cons_of_mem _ (List.mem_singleton_self _)
  · obtain ⟨new, hnew, rfl⟩ := result_recordResized h outer n c origin before old oldSize hanswer
    rw [hinner new hnew]
    rfl

end records

/-! ## Requests -/

variable [HostAllocator σ] (R : HostContract σ) {h : LedgerHeap σ} {p n outerSize : UInt64}
  {m : Machine σ} {kept : Blocks} {old : List UInt64}

/-- A request to the heap `h`, and what it left. It may take all blocks but those of `kept` for it,
and is about the addresses `old`. -/
structure Requested (h : LedgerHeap σ) (kept : Blocks) (old : List UInt64)
    (out : Outcome (LedgerHeap σ) (Option UInt64)) : Prop where
  blocks : out.state.early.blocks = h.early.blocks
  valid : R.Valid out.state.early.machine.host
  request : h.ledger.Request (R.owned h.early.machine.host) kept old out.result
    (R.owned out.state.early.machine.host) out.state.ledger

variable {R}

/-- A request that the host has no block for, or that it never gets to see. -/
theorem Requested.of_unmet {h' : LedgerHeap σ} {out : Outcome (LedgerHeap σ) (Option UInt64)}
    (hstate : out.state = h') (hresult : ∀ q, out.result ≠ .ok (some q))
    (hvalid : R.Valid h'.early.machine.host)
    (howned : R.owned h'.early.machine.host = R.owned h.early.machine.host)
    (hblocks : h'.early.blocks = h.early.blocks) (hl : h.ledger.Spares old h'.ledger) :
    h.Requested R kept old out := by
  subst hstate
  refine ⟨hblocks, hvalid, ?_⟩
  rw [howned]
  exact .unmet hl hresult

/-- A request that the host has granted, from the heap `h'` in which the block is recorded. -/
theorem Requested.of_met {h' : LedgerHeap σ} {outer : UInt64}
    {out : Outcome (LedgerHeap σ) (Option UInt64)} (hout : h'.Records outer old out)
    (hvalid : R.Valid h'.early.machine.host) (houter : kept outer = none)
    (howned : R.owned h'.early.machine.host = kept.take outer n) (hn : h.ledger.overhead < n)
    (hblocks : h'.early.blocks = h.early.blocks) (hl : h.ledger.Spares old h'.ledger) :
    h.Requested R kept old out := by
  have henabled : h'.ledger.enabled = h.ledger.enabled := by
    unfold Ledger.enabled Ledger.level
    rw [hl.config]
  have hinner : h'.ledger.innerOf outer = h.ledger.innerOf outer := by
    unfold Ledger.innerOf
    rw [henabled]
  obtain ⟨hblocks', hhost, hledger, hanswer⟩ := hout
  rw [hinner] at hledger hanswer
  refine ⟨hblocks'.trans hblocks, hhost ▸ hvalid, ?_⟩
  rw [hhost, howned]
  exact .met houter hn ((hl.mono (List.subset_cons_self ..)).trans hledger) hanswer

/-- A block is longer than what is around the user's bytes. -/
theorem overhead_lt_of_add? {n outerSize : UInt64} {l : Ledger} (hn : 0 < n)
    (hsize : Word.add? n l.overhead = some outerSize) : l.overhead < outerSize := by
  have hlength := (Word.toNat_of_add? hsize).1
  rw [UInt64.lt_iff_toNat_lt] at hn ⊢
  rw [hlength]
  exact Nat.lt_add_of_pos_left hn

variable (hvalid : R.Valid h.early.machine.host)
include hvalid

theorem requested_malloc (n : UInt64) (c : Category) (origin : Origin) :
    h.Requested R (R.owned h.early.machine.host) [] ((malloc n c origin).run h) := by
  cases malloc_allocates n c origin h with
  | unasked hstate hresult =>
    exact .of_unmet hstate (by rw [hresult]; nofun) hvalid rfl rfl (.refl _ _)
  | refused hsize hcall hrun =>
    obtain ⟨hvalid', howned⟩ :=
      R.of_malloc hvalid rfl (Word.pos_of_add? hsize (Word.max_one_pos n)) hcall
    rw [hrun]
    exact .of_unmet rfl nofun hvalid' howned rfl (.refl _ _)
  | @granted outerSize outer m hlimit hsize hcall hrun =>
    obtain ⟨hvalid', houter, howned⟩ :=
      R.of_malloc hvalid rfl (Word.pos_of_add? hsize (Word.max_one_pos n)) hcall
    rw [hrun]
    exact .of_met (records_recordGranted (h.setMachine m) ..) hvalid' houter howned
      (overhead_lt_of_add? (Word.max_one_pos n) hsize) rfl (.refl _ _)

section passed

variable (hp : R.owned h.early.machine.host (h.ledger.outerOf p) ≠ none)
include hp

theorem requested_resizeRemoved {b : LiveBlock} {c : Category} {origin : Origin} (hn : 0 < n)
    (hsize : Word.add? n h.ledger.overhead = some outerSize)
    (hlive : h.ledger.live.get? p = some b) :
    h.Requested R ((R.owned h.early.machine.host).drop (h.ledger.outerOf p)) [p]
      ((resizeRemoved ⟨p, some b⟩ n outerSize c origin).run (h.takenOut p b)) := by
  have hpos : 0 < outerSize := Word.pos_of_add? hsize hn
  have hvalid : R.Valid (h.takenOut p b).early.machine.host := hvalid
  cases resizeRemoved_resizes p b n outerSize c origin h with
  | unasked hstate hresult =>
    have hrevived := revived_takenOut hlive (h.takenOut p b).early.machine
    exact .of_unmet (hstate.trans hrevived) (by rw [hresult]; nofun) hvalid rfl rfl (.refl _ _)
  | refused hcall hrun =>
    obtain ⟨hvalid', howned⟩ := R.of_realloc hvalid rfl hp hpos hcall
    rw [hrun, revived_takenOut hlive]
    exact .of_unmet rfl nofun hvalid' howned rfl (.refl _ _)
  | @granted outer m hlimit hcall hrun =>
    obtain ⟨hvalid', houter, howned⟩ := R.of_realloc hvalid rfl hp hpos hcall
    have hrecords := records_recordResized ((h.retire p b).setMachine m) outer n c origin
      ((h.takenOut p b).keptHash p (Word.min b.size n)) p b.size
    rw [hrun]
    exact .of_met hrecords hvalid' houter howned (overhead_lt_of_add? hn hsize) rfl
      (Ledger.spares_retire (List.mem_singleton_self p) b)

theorem requested_reallocTracked (henabled : h.ledger.enabled = true) (hn : 0 < n) (c : Category)
    (origin : Origin) :
    h.Requested R ((R.owned h.early.machine.host).drop (h.ledger.outerOf p)) [p]
      ((reallocTracked p n c origin).run h) := by
  cases hsize : Word.add? n h.ledger.overhead with
  | none =>
    rw [reallocTracked_tooLarge hsize]
    exact .of_unmet rfl nofun hvalid rfl rfl (.refl _ _)
  | some outerSize =>
    have unmet {policy : CorruptionPolicy} {found : Corruption} (q : UInt64) :
        policy.answer found none ≠ .ok (some q) := by
      cases policy <;> nofun
    cases hlive : h.ledger.live.get? p with
    | none =>
      rw [reallocTracked_notLive henabled hsize hlive]
      exact .of_unmet rfl unmet hvalid rfl rfl (Ledger.spares_noted (List.mem_singleton_self p))
    | some b =>
      cases hkind : Ledger.inspectForResize h.memory p b c with
      | error kind =>
        rw [reallocTracked_damaged henabled hsize hlive hkind]
        exact .of_unmet rfl unmet hvalid rfl rfl
          ((Ledger.spares_retire (List.mem_singleton_self p) b).trans
            (Ledger.spares_noted (List.mem_singleton_self p)))
      | ok u =>
        rw [reallocTracked_intact henabled hsize hlive hkind]
        exact requested_resizeRemoved hvalid hp hn hsize hlive

theorem requested_reallocUntracked (henabled : h.ledger.enabled = false) (hn : 0 < n) :
    h.Requested R ((R.owned h.early.machine.host).drop (h.ledger.outerOf p)) [p]
      ((reallocUntracked p n).run h) := by
  rw [Ledger.outerOf_untracked henabled] at hp ⊢
  rcases hcall : HostAllocator.realloc p n h.early.machine with ⟨_ | q, m⟩
  · obtain ⟨hvalid', howned⟩ := R.of_realloc hvalid rfl hp hn hcall
    rw [reallocUntracked_refused hcall]
    exact .of_unmet rfl nofun hvalid' howned rfl (.refl _ _)
  · obtain ⟨hvalid', hq, howned⟩ := R.of_realloc hvalid rfl hp hn hcall
    have hinner : h.ledger.innerOf q = q := Ledger.innerOf_untracked henabled q
    have hoverhead : h.ledger.overhead < n := by rwa [Ledger.overhead_untracked henabled]
    obtain ⟨hstate, hresult⟩ := reallocUntracked_granted hcall
    have hrecords : (h.setMachine m).Records q [p] ((reallocUntracked p n).run h) := by
      refine ⟨by rw [hstate], by rw [hstate], ?_, fun answer hanswer => ?_⟩
      · rw [hstate]
        exact .refl _ _
      · rw [hresult] at hanswer
        rw [show (h.setMachine m).ledger.innerOf q = q from hinner]
        exact (Except.ok.inj hanswer).symm
    exact .of_met hrecords hvalid' hq howned hoverhead rfl (.refl _ _)

theorem requested_realloc (hearly : h.early.blocks.contains p = false) (n : UInt64) (c : Category)
    (origin : Origin) :
    h.Requested R ((R.owned h.early.machine.host).drop (h.ledger.outerOf p)) [p]
      ((realloc (some p) n c origin).run h) := by
  cases henabled : h.ledger.enabled with
  | false =>
    rw [run_realloc_untracked henabled hearly]
    exact requested_reallocUntracked hvalid hp henabled (Word.max_one_pos n)
  | true =>
    rw [run_realloc_tracked henabled hearly]
    exact requested_reallocTracked hvalid hp henabled (Word.max_one_pos n) c origin

/-! ## Release -/

/-- A block that is given back goes to the host, or is withheld from it. -/
theorem handedBack_free (hearly : h.early.blocks.contains p = false) :
    let h' := ((free (some p)).run h).state
    h'.early.blocks = h.early.blocks ∧ R.Valid h'.early.machine.host ∧
      (R.owned h'.early.machine.host = R.owned h.early.machine.host ∨
        R.owned h'.early.machine.host =
          (R.owned h.early.machine.host).drop (h.ledger.outerOf p)) ∧
      h.ledger.Spares [p] h'.ledger := by
  intro h'
  have hp' : p ∈ [p] := List.mem_singleton_self p
  cases henabled : h.ledger.enabled with
  | false =>
    rw [Ledger.outerOf_untracked henabled] at hp ⊢
    obtain ⟨hvalid', howned⟩ := R.of_free hvalid rfl hp
    rw [show h' = _ from (free_untracked henabled hearly).1]
    exact ⟨rfl, hvalid', .inr howned, .refl _ _⟩
  | true =>
    cases hlive : h.ledger.live.get? p with
    | none =>
      have hrun := free_notLive henabled hearly hlive
      rw [show h' = _ from congrArg (·.state) hrun]
      exact ⟨rfl, hvalid, .inl rfl, Ledger.spares_noted hp'⟩
    | some b =>
      cases hkind : Ledger.inspectBlock h.memory p b with
      | error kind =>
        have hrun := free_damaged henabled hearly hlive hkind
        rw [show h' = _ from congrArg (·.state) hrun]
        exact ⟨rfl, hvalid, .inl rfl, (Ledger.spares_retire hp' b).trans (Ledger.spares_noted hp')⟩
      | ok u =>
        rw [Ledger.outerOf_tracked henabled] at hp ⊢
        rw [show h' = _ from (free_intact henabled hearly hlive hkind).1]
        obtain ⟨hvalid', howned⟩ := R.of_free
          (m := (h.setTracked ((h.tracked.retire p b).setMarks p b BlockHeader.dead)).early.machine)
          hvalid rfl hp
        exact ⟨rfl, hvalid', .inr howned, Ledger.spares_retire hp' b⟩

end passed

end LedgerHeap

end HostServices
