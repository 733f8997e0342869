import HostServices.Proofs.Heap.Twins

/-!
# Calls of twins

An operation ends alike on twins and leaves twins, if new blocks are filled with zeros
(`SameOutcome`). What it decides on is in the ledger, in what the host answers, or in the bytes around
live blocks, and these are the same on both sides. It is followed case by case: for a new block, for
blocks without a record, and for those with one (`Twins.malloc`, `Twins.realloc`, `Twins.free`).
-/

namespace HostServices

open BlockHeader (outerOf innerOf)
open Memory (InRange)

namespace LedgerHeap

section twins

variable {σ τ : Type} [HostAllocator σ] [HostAllocator τ] {R : HostContract σ} {Q : HostContract τ}
  {T : HostTwins R Q} {E : Set UInt64} {h : LedgerHeap σ} {h' : LedgerHeap τ}

/-! ## Allocation -/

section calls

variable (hcareful : R.Careful) (hcareful' : Q.Careful) (ht : Twins T E h h') (hbooks : h.InOrder R)
include hcareful hcareful' ht hbooks

section malloc

variable {k : UInt64} {answer : Option UInt64} {m : Machine σ} {m' : Machine τ} (hk : 0 < k)
  (hcall' : HostAllocator.malloc k h'.early.machine = (answer, m'))
include hk hcall'

/-- What hosts do to hand out a block leaves agreement. -/
theorem Twins.agree_of_malloc (hcall : HostAllocator.malloc k h.early.machine = (answer, m)) :
    (h.map R).Agree E m.memory m'.memory := by
  obtain ⟨hvalid, hvalid'⟩ := T.valid ht.alike
  have hsame := hcareful.malloc hvalid hk
  have hsame' := hcareful'.malloc hvalid' hk
  rw [hcall] at hsame
  rw [hcall'] at hsame'
  exact ht.agree_of_sameBytes hbooks hsame hsame'

/-- A fresh block of the host is recorded, if blocks are, and filled with zeros. -/
theorem Twins.granted {outer n : UInt64} (hzero : h.ledger.config.deterministicFill = true)
    (hsize : Word.add? n h.ledger.overhead = some k) (hanswer : answer = some outer)
    (hcall : HostAllocator.malloc k h.early.machine = (answer, m))
    (halike : T.Alike m.host m'.host) (c : Category) (origin : Origin) :
    SameOutcome T (coveredBy E n) ((recordGranted outer n c origin).run (h.setMachine m))
      ((recordGranted outer n c origin).run (h'.setMachine m')) := by
  have hagree := ht.agree_of_malloc hcareful hcareful' hbooks hk hcall' hcall
  subst hanswer
  obtain ⟨hvalid, houter, howned⟩ := R.of_malloc (T.valid ht.alike).1 rfl hk hcall
  have hB := R.apart hvalid
  rw [howned] at hB
  obtain ⟨early, hsecured⟩ := hbooks.secured
  obtain hs | ⟨henabled, -⟩ := hbooks
  · have henabled : h.ledger.enabled = true := hs.enabled _ rfl
    have hf : FreshTwins T E (R.owned h.early.machine.host) (h.setMachine m) (h'.setMachine m') outer
        k n :=
      ⟨⟨henabled, hs.secured, houter, hB, Ledger.toNat_of_overhead henabled hsize⟩, howned, halike,
        ht.blocks, ht.ledger, hagree⟩
    exact hf.recordGranted hzero c origin
  · have henabled' : h'.ledger.enabled = false := ht.ledger.symm ▸ henabled
    have hzero' : h'.ledger.config.deterministicFill = true := ht.ledger.symm ▸ hzero
    obtain rfl := eq_of_overhead henabled hsize
    refine .of_eq (recordGranted_untracked (h := h.setMachine m) henabled)
      (recordGranted_untracked (h := h'.setMachine m') henabled')
      ⟨halike, ht.blocks, ht.ledger, ?_⟩
    show ({ h.map R with owned := R.owned m.host } : HeapMap).Agree _ _ _
    rw [howned]
    refine hagree.lend hsecured houter hB (fun q hq _ => hq)
      (fun a hout ha => mem_of_not_covered ha hout) (fun a hout => freshFill_of_not_user hout)
      (fun a hout => freshFill_of_not_user hout) fun a hin _ => ?_
    exact (freshFill_of_zeroed (h := h'.setMachine m') hzero' hin).trans
      (freshFill_of_zeroed (h := h.setMachine m) hzero hin).symm

end malloc

theorem Twins.malloc (hzero : h.ledger.config.deterministicFill = true) (n : UInt64) (c : Category)
    (origin : Origin) :
    SameOutcome T (coveredBy E (Word.max n 1)) ((malloc n c origin).run h)
      ((malloc n c origin).run h') := by
  cases hlimit : h.ledger.limitCheck (Word.max n 1) c with
  | error e =>
    have hlimit' : h'.ledger.limitCheck (Word.max n 1) c = .error e := ht.ledger.symm ▸ hlimit
    exact .of_eq (malloc_overLimit hlimit) (malloc_overLimit hlimit') ht
  | ok u =>
    have hlimit' : h'.ledger.limitCheck (Word.max n 1) c = .ok () := ht.ledger.symm ▸ hlimit
    cases hsize : Word.add? (Word.max n 1) h.ledger.overhead with
    | none =>
      have hsize' : Word.add? (Word.max n 1) h'.ledger.overhead = none := ht.ledger.symm ▸ hsize
      rw [malloc_tooLarge hlimit hsize, malloc_tooLarge hlimit' hsize']
      exact ⟨rfl, ht⟩
    | some k =>
      have hsize' : Word.add? (Word.max n 1) h'.ledger.overhead = some k := ht.ledger.symm ▸ hsize
      have hk := Word.pos_of_add? hsize (Word.max_one_pos n)
      rcases hcall : HostAllocator.malloc k h.early.machine with ⟨_ | outer, m⟩
      · obtain ⟨m', hcall', halike⟩ := T.of_malloc ht.alike hk hcall
        have howned := (R.of_malloc (T.valid ht.alike).1 rfl hk hcall).2
        rw [malloc_refused hlimit hsize hcall, malloc_refused hlimit' hsize' hcall']
        exact ⟨rfl, ht.setMachine halike howned
          (ht.agree_of_malloc hcareful hcareful' hbooks hk hcall' hcall)⟩
      · obtain ⟨m', hcall', halike⟩ := T.of_malloc ht.alike hk hcall
        rw [malloc_granted hlimit hsize hcall, malloc_granted hlimit' hsize' hcall']
        exact ht.granted hcareful hcareful' hbooks hk hcall' hzero hsize rfl hcall halike c origin

/-! ## Blocks without a record -/

section bare

variable {p k : UInt64} (hbare : (h.map R).bare p = true)
  (hp : R.owned h.early.machine.host p = some k)

omit hcareful hcareful' ht in
include hbare in
/-- Users have all of such a block. -/
theorem InOrder.usable_of_bare : (h.map R).usable p = R.owned h.early.machine.host p := by
  have hnone : h.ledger.live.get? p = none := by
    obtain hs | ⟨-, hlive⟩ := hbooks
    · cases hb : h.ledger.live.get? p with
      | none => rfl
      | some b =>
        have henabled : h.ledger.enabled = true := hs.enabled _ rfl
        have hearly : h.early.blocks.contains p = false := hs.secured.not_early hb (R.apart hs.valid)
        simp [map, hearly, henabled] at hbare
    · rw [hlive]
      rfl
  exact HeapMap.usable_of_bare hnone hbare

variable {n : UInt64} {m : Machine σ} {m' : Machine τ} {bare : UInt64 → Bool}
include hp

theorem Twins.agree_of_unresized (hn : 0 < n)
    (hcall : HostAllocator.realloc p n h.early.machine = (none, m))
    (hcall' : HostAllocator.realloc p n h'.early.machine = (none, m')) :
    (h.map R).Agree E m.memory m'.memory := by
  obtain ⟨hvalid, hvalid'⟩ := T.valid ht.alike
  have hp' : Q.owned h'.early.machine.host p = some k := (T.owned ht.alike).symm ▸ hp
  exact ht.agree_of_sameBytes hbooks (hcareful.unresized hvalid hp hn hcall)
    (hcareful'.unresized hvalid' hp' hn hcall')

include hbare

theorem Twins.agree_of_resized {q : UInt64} (hn : 0 < n)
    (hcall : HostAllocator.realloc p n h.early.machine = (some q, m))
    (hcall' : HostAllocator.realloc p n h'.early.machine = (some q, m'))
    (hsub : ∀ o, bare o = true → o ≠ q → (h.map R).bare o = true) :
    HeapMap.Agree ⟨R.owned m.host, bare, h.ledger.live⟩ (carried E p k q n) m.memory m'.memory := by
  obtain ⟨hvalid, hvalid'⟩ := T.valid ht.alike
  have hp' : Q.owned h'.early.machine.host p = some k := (T.owned ht.alike).symm ▸ hp
  obtain ⟨early, hs⟩ := hbooks.secured_drop hbare
  obtain ⟨hvalid'', hq, howned⟩ := R.of_realloc hvalid rfl (hp ▸ Option.some_ne_none k) hn hcall
  have hB := R.apart hvalid''
  obtain ⟨hsame, hread⟩ := hcareful.resized hvalid hp hn hcall
  obtain ⟨hsame', hread'⟩ := hcareful'.resized hvalid' hp' hn hcall'
  rw [T.owned ht.alike] at hsame'
  rw [howned] at hB ⊢
  exact ht.agree.resize hs ((hbooks.usable_of_bare hbare).trans hp) hq hB hsub hsame hsame' hread hread'

theorem Twins.agree_of_freed (hsub : ∀ o, bare o = true → (h.map R).bare o = true) :
    HeapMap.Agree ⟨R.owned (HostAllocator.free p h.early.machine).host, bare, h.ledger.live⟩ E
      (HostAllocator.free p h.early.machine).memory
      (HostAllocator.free p h'.early.machine).memory := by
  obtain ⟨hvalid, hvalid'⟩ := T.valid ht.alike
  have hp' : Q.owned h'.early.machine.host p = some k := (T.owned ht.alike).symm ▸ hp
  obtain ⟨early, hs⟩ := hbooks.secured_drop hbare
  have howned := (R.of_free hvalid rfl (hp ▸ Option.some_ne_none k)).2
  have hsame' := hcareful'.free hvalid' hp'
  rw [T.owned ht.alike] at hsame'
  rw [howned]
  exact ht.agree.forget hs hsub (hcareful.free hvalid hp) hsame'

end bare

section withoutRecord

variable {p k : UInt64} (hp : R.owned h.early.machine.host p = some k)
include hp

section early

variable (hearly : h.early.blocks.contains p = true)
include hearly

theorem Twins.realloc_early (n : UInt64) (c : Category) (origin : Origin) :
    SameOutcome T (carriedBy E p (some k) (Word.max n 1)) ((realloc (some p) n c origin).run h)
      ((realloc (some p) n c origin).run h') := by
  have hearly' : h'.early.blocks.contains p = true := ht.blocks.symm ▸ hearly
  have hbare : (h.map R).bare p = true := by simp [map, hearly]
  have hn := Word.max_one_pos n
  rw [run_realloc_early hearly, run_realloc_early hearly', run_onEarly, run_onEarly]
  rcases hcall : HostAllocator.realloc p (Word.max n 1) h.early.machine with ⟨_ | q, m⟩
  · obtain ⟨m', hcall', halike⟩ := T.of_realloc ht.alike hp hn hcall
    have howned := (R.of_realloc (T.valid ht.alike).1 rfl (hp ▸ Option.some_ne_none k) hn hcall).2
    rw [EarlyHeap.realloc_refused hcall, EarlyHeap.realloc_refused hcall']
    exact ⟨rfl, ht.setMachine halike howned
      (ht.agree_of_unresized hcareful hcareful' hbooks hp hn hcall hcall')⟩
  · obtain ⟨m', hcall', halike⟩ := T.of_realloc ht.alike hp hn hcall
    rw [EarlyHeap.realloc_granted hcall, EarlyHeap.realloc_granted hcall']
    refine ⟨rfl, halike, congrArg (fun b => (b.erase p).insert q) ht.blocks, ht.ledger, ?_⟩
    refine ht.agree_of_resized hcareful hcareful' hbooks hbare hp hn hcall hcall' fun o ho hne => ?_
    obtain ho | ho := Bool.or_eq_true_iff.1 ho
    · obtain rfl | ho := EarlyBlocks.contains_insert.1 ho
      · exact absurd rfl hne
      · exact Bool.or_eq_true_iff.2 (.inl (EarlyBlocks.contains_erase.1 ho).2)
    · exact Bool.or_eq_true_iff.2 (.inr ho)

theorem Twins.free_early :
    SameOutcome T (fun _ => E) ((free (some p)).run h) ((free (some p)).run h') := by
  have hearly' : h'.early.blocks.contains p = true := ht.blocks.symm ▸ hearly
  have hbare : (h.map R).bare p = true := by simp [map, hearly]
  rw [run_free_early hearly, run_free_early hearly', run_onEarly, run_onEarly]
  refine ⟨rfl, T.free ht.alike hp, congrArg (·.erase p) ht.blocks, ht.ledger, ?_⟩
  refine ht.agree_of_freed hcareful hcareful' hbooks hbare hp fun o ho => ?_
  obtain ho | ho := Bool.or_eq_true_iff.1 ho
  · exact Bool.or_eq_true_iff.2 (.inl (EarlyBlocks.contains_erase.1 ho).2)
  · exact Bool.or_eq_true_iff.2 (.inr ho)

end early

section untracked

variable (henabled : h.ledger.enabled = false) (hearly : h.early.blocks.contains p = false)
include henabled hearly

theorem Twins.realloc_untracked (n : UInt64) (c : Category) (origin : Origin) :
    SameOutcome T (carriedBy E p (some k) (Word.max n 1)) ((realloc (some p) n c origin).run h)
      ((realloc (some p) n c origin).run h') := by
  have hearly' : h'.early.blocks.contains p = false := ht.blocks.symm ▸ hearly
  have henabled' : h'.ledger.enabled = false := ht.ledger.symm ▸ henabled
  have hbare : (h.map R).bare p = true := by simp [map, henabled]
  have hn := Word.max_one_pos n
  rw [run_realloc_untracked henabled hearly, run_realloc_untracked henabled' hearly']
  rcases hcall : HostAllocator.realloc p (Word.max n 1) h.early.machine with ⟨_ | q, m⟩
  · obtain ⟨m', hcall', halike⟩ := T.of_realloc ht.alike hp hn hcall
    have howned := (R.of_realloc (T.valid ht.alike).1 rfl (hp ▸ Option.some_ne_none k) hn hcall).2
    rw [reallocUntracked_refused hcall, reallocUntracked_refused hcall']
    exact ⟨rfl, ht.setMachine halike howned
      (ht.agree_of_unresized hcareful hcareful' hbooks hp hn hcall hcall')⟩
  · obtain ⟨m', hcall', halike⟩ := T.of_realloc ht.alike hp hn hcall
    exact .of_eq (reallocUntracked_granted hcall) (reallocUntracked_granted hcall')
      ⟨halike, ht.blocks, ht.ledger, ht.agree_of_resized hcareful hcareful' hbooks hbare hp hn hcall
        hcall' fun o ho _ => ho⟩

theorem Twins.free_untracked :
    SameOutcome T (fun _ => E) ((free (some p)).run h) ((free (some p)).run h') := by
  have hearly' : h'.early.blocks.contains p = false := ht.blocks.symm ▸ hearly
  have henabled' : h'.ledger.enabled = false := ht.ledger.symm ▸ henabled
  have hbare : (h.map R).bare p = true := by simp [map, henabled]
  exact .of_eq (LedgerHeap.free_untracked henabled hearly)
    (LedgerHeap.free_untracked henabled' hearly')
    ⟨T.free ht.alike hp, ht.blocks, ht.ledger, ht.agree_of_freed hcareful hcareful' hbooks hbare hp
      fun o ho => ho⟩

end untracked

end withoutRecord

/-! ## Blocks with a record -/

section recorded

variable (hs : Heap.Sound R (.ready h)) {p n k : UInt64} {b : LiveBlock}

omit hcareful hcareful' hbooks in
/-- A report takes the block out of the ledger, if it was there. -/
theorem Twins.noted (c : Corruption) : Twins T E (h.noted c) (h'.noted c) :=
  ⟨ht.alike, ht.blocks, congrArg (·.noted c) ht.ledger, ht.agree⟩

omit hcareful hcareful' hbooks in
theorem Twins.retire (hbare : (h.map R).bare p = false) (b : LiveBlock) :
    Twins T E (h.retire p b) (h'.retire p b) :=
  ⟨ht.alike, ht.blocks, congrArg (·.retire p b) ht.ledger, ht.agree.erase hbare⟩

include hs

section resize

variable (hb : h.ledger.live.get? p = some b) (hok : Ledger.inspectBlock h.memory p b = .ok ())
  (hn : 0 < n) (hsize : Word.add? n h.ledger.overhead = some k)
include hb hn hsize

omit hbooks in
/-- The hosts have moved a live block, and it is to be recorded where it is now. -/
theorem Twins.moved {outer : UInt64} {m : Machine σ} {m' : Machine τ}
    (hzero : h.ledger.config.deterministicFill = true)
    (hcall : HostAllocator.realloc (outerOf p) k (h.takenOut p b).early.machine = (some outer, m))
    (hcall' : HostAllocator.realloc (outerOf p) k (h'.takenOut p b).early.machine = (some outer, m'))
    (halike : T.Alike m.host m'.host) (origin : Origin) :
    SameOutcome T (carriedBy E p (some b.size) n)
      ((recordResized ((h.takenOut p b).keptHash p (Word.min b.size n)) p b.size outer n b.category
        origin).run ((h.retire p b).setMachine m))
      ((recordResized ((h'.takenOut p b).keptHash p (Word.min b.size n)) p b.size outer n b.category
        origin).run ((h'.retire p b).setMachine m')) := by
  have hs' := ht.sound hs
  have hb' : h'.ledger.live.get? p = some b := ht.ledger.symm ▸ hb
  have hsize' : Word.add? n h'.ledger.overhead = some k := ht.ledger.symm ▸ hsize
  have hmoved := moved_of_realloc hcareful hs hb hn hsize hcall
  have hmoved' := moved_of_realloc hcareful' hs' hb' hn hsize' hcall'
  have hsecured : Secured (R.owned h.early.machine.host) h.early.blocks h.ledger.live := hs.secured
  have hearly := hsecured.not_early hb (R.apart hs.valid)
  have hpos := Word.pos_of_add? hsize hn
  have howned := (R.of_realloc (m := (h.takenOut p b).early.machine) hs.valid rfl
    (hsecured.live_ne_none hb) hpos hcall).2.2
  have hothers' := hmoved'.others
  rw [T.owned ht.alike] at hothers'
  have hagree := ht.agree.release hsecured (bare_eq_false hs hearly) hb hmoved.others hothers'
  have hf : FreshTwins T E ((R.owned h.early.machine.host).drop (outerOf p))
      ((h.retire p b).setMachine m) ((h'.retire p b).setMachine m') outer k n :=
    ⟨hmoved.fresh, howned, halike, ht.blocks, congrArg (·.retire p b) ht.ledger, hagree⟩
  refine hf.recordResized hzero b.category origin (fun _ => hmoved.keptHash)
    (fun _ => hmoved'.keptHash) fun i hi hE => ?_
  rw [← Word.toNat_min] at hi
  have hlt : i < b.size.toNat := Nat.lt_of_lt_of_le hi (Word.toNat_min .. ▸ Nat.min_le_left ..)
  have hin : InRange p b.size.toNat (p + UInt64.ofNat i) :=
    Memory.inRange_add hlt (Nat.le_of_lt b.size.toNat_lt)
  -- The marks that were turned dead are beside the user's bytes.
  have unmarked (mem : Memory) : BlockHeader.setMarks mem p b.size BlockHeader.dead
      (p + UInt64.ofNat i) = mem (p + UInt64.ofNat i) :=
    BlockHeader.setMarks_of_not_marked fun hmarked =>
      BlockHeader.not_user_of_inBand (hsecured.length_lt hb) (BlockHeader.inBand_of_marked hmarked) hin
  have hsame : h'.memory (p + UInt64.ofNat i) = h.memory (p + UInt64.ofNat i) :=
    ht.agree (.inr ⟨p, b.size, HeapMap.usable_of_live hb, hin, hE⟩)
  calc m'.memory (innerOf outer + UInt64.ofNat i)
      = (h'.takenOut p b).memory (p + UInt64.ofNat i) := Memory.apply_of_read hmoved'.kept hi
    _ = h'.memory (p + UInt64.ofNat i) := unmarked h'.memory
    _ = h.memory (p + UInt64.ofNat i) := hsame
    _ = (h.takenOut p b).memory (p + UInt64.ofNat i) := (unmarked h.memory).symm
    _ = m.memory (innerOf outer + UInt64.ofNat i) := (Memory.apply_of_read hmoved.kept hi).symm

include hok

omit hsize hn in
/-- The hosts have refused to move a live block, and it is put back. -/
theorem Twins.unmoved {m : Machine σ} {m' : Machine τ} (hpos : 0 < k)
    (hcall : HostAllocator.realloc (outerOf p) k (h.takenOut p b).early.machine = (none, m))
    (hcall' : HostAllocator.realloc (outerOf p) k (h'.takenOut p b).early.machine = (none, m'))
    (halike : T.Alike m.host m'.host) :
    Twins T E (((h.takenOut p b).setMachine m).revived ⟨p, some b⟩)
      (((h'.takenOut p b).setMachine m').revived ⟨p, some b⟩) := by
  have hs' := ht.sound hs
  have hb' : h'.ledger.live.get? p = some b := ht.ledger.symm ▸ hb
  have hok' : Ledger.inspectBlock h'.memory p b = .ok () := (ht.inspectBlock hb).trans hok
  obtain ⟨l, hl, -⟩ := hs.secured.liveOwned hb
  obtain ⟨l', hl', -⟩ := hs'.secured.liveOwned hb'
  have hvalid : R.Valid (h.takenOut p b).early.machine.host := hs.valid
  have hvalid' : Q.Valid (h'.takenOut p b).early.machine.host := hs'.valid
  have howned := (R.of_realloc hvalid rfl (hs.secured.live_ne_none hb) hpos hcall).2
  have howned' := (Q.of_realloc hvalid' rfl (hs'.secured.live_ne_none hb') hpos hcall').2
  have hun := revived_untouched hs hb hok howned (hcareful.unresized hvalid hl hpos hcall)
  have hun' := revived_untouched hs' hb' hok' howned' (hcareful'.unresized hvalid' hl' hpos hcall')
  exact ht.of_untouched hbooks halike hun hun'

/-- A good block that is out of the ledger is put back, or moved. -/
theorem Twins.resizeRemoved (hzero : h.ledger.config.deterministicFill = true) (origin : Origin) :
    SameOutcome T (carriedBy E p (some b.size) n)
      ((resizeRemoved ⟨p, some b⟩ n k b.category origin).run (h.takenOut p b))
      ((resizeRemoved ⟨p, some b⟩ n k b.category origin).run (h'.takenOut p b)) := by
  have hs' := ht.sound hs
  have hb' : h'.ledger.live.get? p = some b := ht.ledger.symm ▸ hb
  have hlimits : h'.ledger.limitCheck (n - b.size) b.category =
      h.ledger.limitCheck (n - b.size) b.category := by rw [ht.ledger]
  by_cases hlimit : b.size < n → h.ledger.limitCheck (n - b.size) b.category = .ok ()
  · have hlimit' : b.size < n → h'.ledger.limitCheck (n - b.size) b.category = .ok () :=
      fun hgrow => hlimits.trans (hlimit hgrow)
    have houterOf := outerOf_takenOut (hs.enabled _ rfl) (p := p) (b := b)
    have houterOf' := outerOf_takenOut (hs'.enabled _ rfl) (p := p) (b := b)
    have hpos := Word.pos_of_add? hsize hn
    obtain ⟨l, hl, -⟩ := hs.secured.liveOwned hb
    have halike : T.Alike (h.takenOut p b).early.machine.host (h'.takenOut p b).early.machine.host :=
      ht.alike
    rcases hcall : HostAllocator.realloc (outerOf p) k (h.takenOut p b).early.machine with
      ⟨_ | outer, m⟩
    · obtain ⟨m', hcall', halike'⟩ := T.of_realloc halike hl hpos hcall
      rw [resizeRemoved_refused hlimit (houterOf.symm ▸ hcall),
        resizeRemoved_refused hlimit' (houterOf'.symm ▸ hcall')]
      exact ⟨rfl, ht.unmoved hcareful hcareful' hbooks hs hb hok hpos hcall hcall' halike'⟩
    · obtain ⟨m', hcall', halike'⟩ := T.of_realloc halike hl hpos hcall
      rw [resizeRemoved_granted hlimit (houterOf.symm ▸ hcall),
        resizeRemoved_granted hlimit' (houterOf'.symm ▸ hcall')]
      exact ht.moved hcareful hcareful' hs hb hn hsize hzero hcall hcall' halike' origin
  · obtain ⟨hgrow, hlimit⟩ := Classical.not_imp.1 hlimit
    cases herror : h.ledger.limitCheck (n - b.size) b.category with
    | ok u => exact absurd herror hlimit
    | error e =>
      have hok' : Ledger.inspectBlock h'.memory p b = .ok () := (ht.inspectBlock hb).trans hok
      have hun := revived_untouched (m := (h.takenOut p b).early.machine) hs hb hok rfl (.refl ..)
      have hun' := revived_untouched (m := (h'.takenOut p b).early.machine) hs' hb' hok' rfl (.refl ..)
      exact .of_eq (resizeRemoved_overLimit (r := ⟨p, some b⟩) hgrow herror)
        (resizeRemoved_overLimit (r := ⟨p, some b⟩) hgrow (hlimits.trans herror))
        (ht.of_untouched hbooks ht.alike hun hun')

end resize

variable (hearly : h.early.blocks.contains p = false)
include hearly

theorem Twins.realloc_tracked (hzero : h.ledger.config.deterministicFill = true) (n : UInt64)
    (c : Category) (origin : Origin) :
    SameOutcome T (carriedBy E p ((h.map R).usable p) (Word.max n 1))
      ((realloc (some p) n c origin).run h) ((realloc (some p) n c origin).run h') := by
  have henabled : h.ledger.enabled = true := hs.enabled _ rfl
  have henabled' : h'.ledger.enabled = true := ht.ledger.symm ▸ henabled
  have hearly' : h'.early.blocks.contains p = false := ht.blocks.symm ▸ hearly
  rw [run_realloc_tracked henabled hearly, run_realloc_tracked henabled' hearly']
  cases hsize : Word.add? (Word.max n 1) h.ledger.overhead with
  | none =>
    have hsize' : Word.add? (Word.max n 1) h'.ledger.overhead = none := ht.ledger.symm ▸ hsize
    rw [reallocTracked_tooLarge hsize, reallocTracked_tooLarge hsize']
    exact ⟨rfl, ht⟩
  | some k =>
    have hsize' : Word.add? (Word.max n 1) h'.ledger.overhead = some k := ht.ledger.symm ▸ hsize
    cases hb : h.ledger.live.get? p with
    | none =>
      have hb' : h'.ledger.live.get? p = none := ht.ledger.symm ▸ hb
      refine .of_run (reallocTracked_notLive henabled hsize hb)
        (ht.policy ▸ reallocTracked_notLive henabled' hsize' hb') ?_
      rw [carriedBy_answer]
      exact ht.noted _
    | some b =>
      have hb' : h'.ledger.live.get? p = some b := ht.ledger.symm ▸ hb
      cases hkind : Ledger.inspectForResize h.memory p b c with
      | error kind =>
        have hkind' := (ht.inspectForResize hb c).trans hkind
        refine .of_run (reallocTracked_damaged henabled hsize hb hkind)
          (ht.policy ▸ reallocTracked_damaged henabled' hsize' hb' hkind') ?_
        rw [carriedBy_answer]
        exact (ht.retire (bare_eq_false hs hearly) b).noted _
      | ok u =>
        have hkind' := (ht.inspectForResize hb c).trans hkind
        have hok := Ledger.inspectBlock_of_inspectForResize hkind
        obtain rfl := Ledger.category_of_inspectForResize hkind
        rw [reallocTracked_intact henabled hsize hb hkind,
          reallocTracked_intact henabled' hsize' hb' hkind', HeapMap.usable_of_live hb]
        exact ht.resizeRemoved hcareful hcareful' hbooks hs hb hok (Word.max_one_pos n) hsize hzero origin

omit hbooks in
/-- A good live block is marked dead and goes back to the hosts. -/
theorem Twins.released (hb : h.ledger.live.get? p = some b) :
    Twins T E (h.released p b) (h'.released p b) := by
  have hs' := ht.sound hs
  have hb' : h'.ledger.live.get? p = some b := ht.ledger.symm ▸ hb
  have hsecured : Secured (R.owned h.early.machine.host) h.early.blocks h.ledger.live := hs.secured
  obtain ⟨k, hk, -⟩ := hsecured.liveOwned hb
  have hk' : Q.owned h'.early.machine.host (outerOf p) = some k := (T.owned ht.alike).symm ▸ hk
  have hfree := (hsecured.sameBytes_setMarks hb (R.apart hs.valid) h.memory BlockHeader.dead).trans
    (hcareful.free (m := (h.takenOut p b).early.machine) hs.valid hk)
  have hfree' := (hs'.secured.sameBytes_setMarks hb' (Q.apart hs'.valid) h'.memory
    BlockHeader.dead).trans (hcareful'.free (m := (h'.takenOut p b).early.machine) hs'.valid hk')
  have howned := (R.of_free (m := (h.takenOut p b).early.machine) hs.valid rfl
    (hk ▸ Option.some_ne_none k)).2
  have halike : T.Alike (h.takenOut p b).early.machine.host (h'.takenOut p b).early.machine.host :=
    ht.alike
  have hagree := ht.agree.release hsecured (bare_eq_false hs hearly) hb hfree
    (show _ from T.owned ht.alike ▸ hfree')
  refine ⟨T.free halike hk, ht.blocks, congrArg (·.retire p b) ht.ledger, ?_⟩
  show ({ (h.map R).erase p with
    owned := R.owned (HostAllocator.free (outerOf p) (h.takenOut p b).early.machine).host } :
      HeapMap).Agree _ _ _
  rw [howned]
  exact hagree

omit hbooks in
theorem Twins.free_tracked :
    SameOutcome T (fun _ => E) ((free (some p)).run h) ((free (some p)).run h') := by
  have henabled : h.ledger.enabled = true := hs.enabled _ rfl
  have henabled' : h'.ledger.enabled = true := ht.ledger.symm ▸ henabled
  have hearly' : h'.early.blocks.contains p = false := ht.blocks.symm ▸ hearly
  cases hb : h.ledger.live.get? p with
  | none =>
    have hb' : h'.ledger.live.get? p = none := ht.ledger.symm ▸ hb
    exact .of_run (free_notLive henabled hearly hb)
      (ht.policy ▸ free_notLive henabled' hearly' hb') (ht.noted _)
  | some b =>
    have hb' : h'.ledger.live.get? p = some b := ht.ledger.symm ▸ hb
    cases hkind : Ledger.inspectBlock h.memory p b with
    | error kind =>
      have hkind' := (ht.inspectBlock hb).trans hkind
      exact .of_run (free_damaged henabled hearly hb hkind)
        (ht.policy ▸ free_damaged henabled' hearly' hb' hkind')
        ((ht.retire (bare_eq_false hs hearly) b).noted _)
    | ok u =>
      have hkind' := (ht.inspectBlock hb).trans hkind
      exact .of_eq (free_intact henabled hearly hb hkind) (free_intact henabled' hearly' hb' hkind')
        (ht.released hcareful hcareful' hs hearly hb)

end recorded

/-! ## All operations -/

section all

variable {p : UInt64} (hp : h.ledger.enabled = true ∨ (h.map R).usable p ≠ none)
include hp

omit hcareful hcareful' ht in
/-- Without a record, a block that users have is one of the host's. -/
theorem InOrder.owned_of_bare (hbare : (h.map R).bare p = true) :
    ∃ k, R.owned h.early.machine.host p = some k := by
  refine Option.ne_none_iff_exists'.1 ?_
  obtain hs | ⟨henabled, -⟩ := id hbooks
  · have henabled : h.ledger.enabled = true := hs.enabled _ rfl
    have hearly : h.early.blocks.contains p = true := by simpa [map, henabled] using hbare
    exact hs.secured.earlyOwned hearly
  · rw [← hbooks.usable_of_bare hbare]
    exact hp.resolve_left (Bool.eq_false_iff.1 henabled)

theorem Twins.realloc (hzero : h.ledger.config.deterministicFill = true) (n : UInt64) (c : Category)
    (origin : Origin) :
    SameOutcome T (carriedBy E p ((h.map R).usable p) (Word.max n 1))
      ((realloc (some p) n c origin).run h) ((realloc (some p) n c origin).run h') := by
  cases hearly : h.early.blocks.contains p with
  | true =>
    have hbare : (h.map R).bare p = true := by simp [map, hearly]
    obtain ⟨k, hk⟩ := hbooks.owned_of_bare hp hbare
    rw [(hbooks.usable_of_bare hbare).trans hk]
    exact ht.realloc_early hcareful hcareful' hbooks hk hearly n c origin
  | false =>
    obtain hs | ⟨henabled, -⟩ := id hbooks
    · exact ht.realloc_tracked hcareful hcareful' hbooks hs hearly hzero n c origin
    · have hbare : (h.map R).bare p = true := by simp [map, henabled]
      obtain ⟨k, hk⟩ := hbooks.owned_of_bare hp hbare
      rw [(hbooks.usable_of_bare hbare).trans hk]
      exact ht.realloc_untracked hcareful hcareful' hbooks hk henabled hearly n c origin

theorem Twins.free :
    SameOutcome T (fun _ => E) ((free (some p)).run h) ((free (some p)).run h') := by
  cases hearly : h.early.blocks.contains p with
  | true =>
    have hbare : (h.map R).bare p = true := by simp [map, hearly]
    obtain ⟨k, hk⟩ := hbooks.owned_of_bare hp hbare
    exact ht.free_early hcareful hcareful' hbooks hk hearly
  | false =>
    obtain hs | ⟨henabled, -⟩ := id hbooks
    · exact ht.free_tracked hcareful hcareful' hs hearly
    · have hbare : (h.map R).bare p = true := by simp [map, henabled]
      obtain ⟨k, hk⟩ := hbooks.owned_of_bare hp hbare
      exact ht.free_untracked hcareful hcareful' hbooks hk henabled hearly

end all

end calls

end twins

end LedgerHeap

end HostServices
