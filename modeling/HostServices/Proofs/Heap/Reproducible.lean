import HostServices.Proofs.Heap.TwinCalls

/-!
# Reproducible contents

A heap that fills new blocks with zeros is run twice, over hosts that answer alike and put different
bytes into fresh memory. Both runs answer the same, and users find the same bytes in their blocks, but
for those that are exposed (`same_bytes_unless_exposed`). Only a resize to more than a block had
exposes bytes, for what it gains is not filled, so contents do depend on the host then
(`grown_tail_differs`).
-/

namespace HostServices

open Memory (InRange)

/-- What users do with a heap that has a ledger: they call it, or write to memory. -/
inductive UserStep
  | malloc (n : UInt64) (c : Category) (origin : Origin)
  | realloc (p : Option UInt64) (n : UInt64) (c : Category) (origin : Origin)
  | free (p : Option UInt64)
  | write (start : UInt64) (bytes : Array UInt8)

namespace UserStep

section steps

variable {σ : Type} [HostAllocator σ]

/-- What a step leaves. -/
def perform : UserStep → LedgerHeap σ → LedgerHeap σ
  | malloc n c origin, h => ((LedgerHeap.malloc n c origin).run h).state
  | realloc p n c origin, h => ((LedgerHeap.realloc p n c origin).run h).state
  | free p, h => ((LedgerHeap.free p).run h).state
  | write start bytes, h => h.setMemory (h.memory.write start bytes)

/-- What a step answers; only requests are answered with a block. -/
def answer : UserStep → LedgerHeap σ → Except Stop (Option UInt64)
  | malloc n c origin, h => ((LedgerHeap.malloc n c origin).run h).result
  | realloc p n c origin, h => ((LedgerHeap.realloc p n c origin).run h).result
  | free p, h => ((LedgerHeap.free p).run h).result.map fun _ => none
  | write .., _ => .ok none

/-- What steps one after another leave. -/
def run (steps : List UserStep) (h : LedgerHeap σ) : LedgerHeap σ :=
  steps.foldl (fun h step => step.perform h) h

/-- What steps one after another answer. -/
def answers : List UserStep → LedgerHeap σ → List (Except Stop (Option UInt64))
  | [], _ => []
  | step :: steps, h => step.answer h :: answers steps (step.perform h)

variable (R : HostContract σ)

/-- What a heap relies on: without tracking, only blocks that users have are given to it. -/
def Proper : UserStep → LedgerHeap σ → Prop
  | realloc (some p) _ _ _, h | free (some p), h =>
    h.ledger.enabled = true ∨ (h.map R).usable p ≠ none
  | _, _ => True

/-- A resize asks for no more than the block has. -/
def Fits : UserStep → LedgerHeap σ → Prop
  | realloc (some p) n _ _, h => ∀ k, (h.map R).usable p = some k → Word.max n 1 ≤ k
  | _, _ => True

/-- The exposed bytes after a step: new blocks and writes cover what was exposed, and a resize takes
it along and exposes what the block gains. -/
def exposed (h : LedgerHeap σ) (E : Set UInt64) : UserStep → Set UInt64
  | malloc n c origin => coveredBy E (Word.max n 1) ((malloc n c origin).answer h)
  | realloc none n c origin => coveredBy E (Word.max n 1) ((realloc none n c origin).answer h)
  | realloc (some p) n c origin =>
    carriedBy E p ((h.map R).usable p) (Word.max n 1) ((realloc (some p) n c origin).answer h)
  | free _ => E
  | write start bytes => covered E start bytes.size

/-- Each step is proper when it is done. -/
def ProperRun : List UserStep → LedgerHeap σ → Prop
  | [], _ => True
  | step :: steps, h => step.Proper R h ∧ ProperRun steps (step.perform h)

/-- No step asks for more than a block has. -/
def FitsRun : List UserStep → LedgerHeap σ → Prop
  | [], _ => True
  | step :: steps, h => step.Fits R h ∧ FitsRun steps (step.perform h)

/-- The exposed bytes after steps one after another. -/
def exposedRun : List UserStep → LedgerHeap σ → Set UInt64 → Set UInt64
  | [], _, E => E
  | step :: steps, h, E => exposedRun steps (step.perform h) (step.exposed R h E)

variable {R} {h : LedgerHeap σ}

/-- Without a resize to more than a block had, nothing is exposed. -/
theorem exposed_empty {step : UserStep} (hfits : step.Fits R h) : step.exposed R h ∅ = ∅ := by
  have covered_empty (p : UInt64) (len : Nat) : covered ∅ p len = ∅ :=
    Set.subset_empty_iff.1 covered_subset
  have coveredBy_empty (n : UInt64) (r : Except Stop (Option UInt64)) : coveredBy ∅ n r = ∅ := by
    obtain _ | _ | p := r
    · rfl
    · rfl
    · exact covered_empty p _
  cases step with
  | malloc n c origin => exact coveredBy_empty ..
  | realloc p n c origin =>
    cases p with
    | none => exact coveredBy_empty ..
    | some p =>
      show carriedBy ∅ p ((h.map R).usable p) (Word.max n 1)
        ((realloc (some p) n c origin).answer h) = ∅
      obtain _ | _ | q := (realloc (some p) n c origin).answer h
      · rfl
      · rfl
      · cases hk : (h.map R).usable p with
        | none => rfl
        | some k => exact carried_empty (hfits k hk)
  | free p => rfl
  | write start bytes => exact covered_empty ..

theorem exposedRun_empty {steps : List UserStep} (hfits : FitsRun R steps h) :
    exposedRun R steps h ∅ = ∅ := by
  induction steps generalizing h with
  | nil => rfl
  | cons step steps ih =>
    unfold exposedRun
    rw [exposed_empty hfits.1]
    exact ih hfits.2

/-! ## The books of a run -/

section untracked

variable (henabled : h.ledger.enabled = false)
include henabled

theorem ledger_malloc (n : UInt64) (c : Category) (origin : Origin) :
    ((LedgerHeap.malloc n c origin).run h).state.ledger = h.ledger := by
  cases LedgerHeap.malloc_allocates n c origin h with
  | unasked hstate => rw [hstate]
  | refused _ _ hrun =>
    rw [hrun]
    rfl
  | @granted _ outer m _ _ _ hrun =>
    rw [hrun, (LedgerHeap.recordGranted_untracked (h := h.setMachine m) henabled).1]
    rfl

theorem ledger_realloc (p n : UInt64) (c : Category) (origin : Origin) :
    ((LedgerHeap.realloc (some p) n c origin).run h).state.ledger = h.ledger := by
  cases hearly : h.early.blocks.contains p with
  | true =>
    rw [LedgerHeap.run_realloc_early hearly]
    rfl
  | false =>
    rw [LedgerHeap.run_realloc_untracked henabled hearly]
    rcases hcall : HostAllocator.realloc p (Word.max n 1) h.early.machine with ⟨_ | q, m⟩
    · rw [LedgerHeap.reallocUntracked_refused hcall]
      rfl
    · rw [(LedgerHeap.reallocUntracked_granted hcall).1]
      rfl

theorem ledger_free (p : UInt64) :
    ((LedgerHeap.free (some p)).run h).state.ledger = h.ledger := by
  cases hearly : h.early.blocks.contains p with
  | true =>
    rw [LedgerHeap.run_free_early hearly]
    rfl
  | false =>
    rw [(LedgerHeap.free_untracked henabled hearly).1]
    rfl

/-- Without tracking, no step changes the ledger. -/
theorem ledger_perform (step : UserStep) : (step.perform h).ledger = h.ledger := by
  cases step with
  | malloc n c origin => exact ledger_malloc henabled n c origin
  | realloc p n c origin =>
    cases p with
    | none => exact ledger_malloc henabled n c origin
    | some p => exact ledger_realloc henabled p n c origin
  | free p =>
    cases p with
    | none => rfl
    | some p => exact ledger_free henabled p
  | write start bytes => rfl

end untracked

/-- With tracking, each step makes one change. -/
theorem perform_change (henabled : h.ledger.enabled = true) (step : UserStep) :
    h.Change Set.univ (step.perform h) := by
  cases step with
  | malloc n c origin => exact LedgerHeap.malloc_change n (Set.mem_univ _)
  | realloc p n c origin => exact LedgerHeap.realloc_change henabled p n (Set.mem_univ _)
  | free p => exact LedgerHeap.free_change henabled p
  | write start bytes => exact LedgerHeap.change_setMemory _

theorem perform_inOrder (hbooks : h.InOrder R) (step : UserStep) :
    (step.perform h).InOrder R ∧ (step.perform h).ledger.config = h.ledger.config := by
  obtain hs | ⟨henabled, hlive⟩ := hbooks
  · have henabled : h.ledger.enabled = true := hs.enabled _ rfl
    have hchange := step.perform_change henabled
    exact ⟨.tracked (hs.change (.ready hchange)), hchange.config henabled⟩
  · have hledger := ledger_perform henabled step
    exact ⟨.untracked (hledger.symm ▸ henabled) (hledger.symm ▸ hlive), congrArg (·.config) hledger⟩

end steps

/-! ## Two runs -/

section twins

variable {σ τ : Type} [HostAllocator σ] [HostAllocator τ] {R : HostContract σ} {Q : HostContract τ}
  {T : HostTwins R Q} {E : Set UInt64} {h : LedgerHeap σ} {h' : LedgerHeap τ}

variable (T) in
/-- Twins that fill new blocks with zeros. -/
structure Reproduced (E : Set UInt64) (h : LedgerHeap σ) (h' : LedgerHeap τ) : Prop extends
    LedgerHeap.Twins T E h h' where
  zeroed : h.ledger.config.deterministicFill = true
  books : h.InOrder R

variable (hcareful : R.Careful) (hcareful' : Q.Careful)
include hcareful hcareful'

/-- A step answers the same on both sides and leaves twins. -/
theorem Reproduced.perform_twins (hr : Reproduced T E h h') {step : UserStep}
    (hproper : step.Proper R h) :
    step.answer h' = step.answer h ∧
      LedgerHeap.Twins T (step.exposed R h E) (step.perform h) (step.perform h') := by
  obtain ⟨ht, hzero, hbooks⟩ := hr
  cases step with
  | malloc n c origin =>
    have hsame := ht.malloc hcareful hcareful' hbooks hzero n c origin
    exact ⟨hsame.result, hsame.twins⟩
  | realloc p n c origin =>
    cases p with
    | none =>
      have hsame := ht.malloc hcareful hcareful' hbooks hzero n c origin
      exact ⟨hsame.result, hsame.twins⟩
    | some p =>
      have hsame := ht.realloc hcareful hcareful' hbooks hproper hzero n c origin
      exact ⟨hsame.result, hsame.twins⟩
  | free p =>
    cases p with
    | none => exact ⟨rfl, ht⟩
    | some p =>
      have hsame := ht.free hcareful hcareful' hbooks hproper
      exact ⟨congrArg (Except.map fun _ => none) hsame.result, hsame.twins⟩
  | write start bytes => exact ⟨rfl, ht.alike, ht.blocks, ht.ledger, ht.agree.write start bytes⟩

theorem Reproduced.perform (hr : Reproduced T E h h') {step : UserStep} (hproper : step.Proper R h) :
    Reproduced T (step.exposed R h E) (step.perform h) (step.perform h') := by
  obtain ⟨hbooks, hconfig⟩ := step.perform_inOrder hr.books
  exact ⟨(hr.perform_twins hcareful hcareful' hproper).2, hconfig.symm ▸ hr.zeroed, hbooks⟩

theorem Reproduced.run (hr : Reproduced T E h h') {steps : List UserStep}
    (hproper : ProperRun R steps h) :
    answers steps h' = answers steps h ∧
      Reproduced T (exposedRun R steps h E) (run steps h) (run steps h') := by
  induction steps generalizing h h' E with
  | nil => exact ⟨rfl, hr⟩
  | cons step steps ih =>
    have hanswer := (hr.perform_twins hcareful hcareful' hproper.1).1
    obtain ⟨hanswers, hlast⟩ := ih (hr.perform hcareful hcareful' hproper.1) hproper.2
    refine ⟨?_, hlast⟩
    rw [answers, answers, hanswer, hanswers]

end twins

end UserStep

namespace LedgerHeap

open UserStep

/-- A heap that fills new blocks with zeros is run twice, over hosts that answer alike and may have
anything in fresh memory. All answers are the same, and so are users' blocks and each byte in them that
is not exposed: that was not in memory to begin with, and not gained by a resize, or was written since.
So if what users had to begin with was the same, and no resize asked for more than a block had, they
find the same in all their blocks. -/
theorem same_bytes_unless_exposed {σ τ : Type} [HostAllocator σ] [HostAllocator τ]
    {R : HostContract σ} {Q : HostContract τ} (T : HostTwins R Q) (hcareful : R.Careful)
    (hcareful' : Q.Careful) {e : EarlyHeap σ} {e' : EarlyHeap τ}
    (halike : T.Alike e.machine.host e'.machine.host) (hblocks : e'.blocks = e.blocks)
    (howned : ∀ p, e.blocks.contains p = true → R.owned e.machine.host p ≠ none)
    {config : MemoryConfig} (hzero : config.deterministicFill = true) (policy : CorruptionPolicy)
    {E : Set UInt64}
    (hsame : ∀ p n, (map R ⟨e, { config, policy }⟩).usable p = some n →
      ∀ a, InRange p n.toNat a → a ∉ E → e'.machine.memory a = e.machine.memory a)
    {steps : List UserStep} (hproper : ProperRun R steps ⟨e, { config, policy }⟩) :
    answers steps ⟨e', { config, policy }⟩ = answers steps ⟨e, { config, policy }⟩ ∧
      (map Q (run steps ⟨e', { config, policy }⟩)).usable =
        (map R (run steps ⟨e, { config, policy }⟩)).usable ∧
      (∀ p n, (map R (run steps ⟨e, { config, policy }⟩)).usable p = some n →
        ∀ a, InRange p n.toNat a → a ∉ exposedRun R steps ⟨e, { config, policy }⟩ E →
          (run steps ⟨e', { config, policy }⟩).memory a =
            (run steps ⟨e, { config, policy }⟩).memory a) ∧
      (E = ∅ → FitsRun R steps ⟨e, { config, policy }⟩ →
        ∀ p n, (map R (run steps ⟨e, { config, policy }⟩)).usable p = some n →
          (run steps ⟨e', { config, policy }⟩).memory.read p n.toNat =
            (run steps ⟨e, { config, policy }⟩).memory.read p n.toNat) := by
  have hbooks : InOrder R ⟨e, { config, policy }⟩ := by
    cases henabled : config.tracking.enabled with
    | true =>
      refine .tracked ⟨fun l hl => ?_, (T.valid halike).1, ⟨fun hp => howned _ hp, nofun, nofun⟩⟩
      obtain rfl := Option.some.inj hl
      exact henabled
    | false => exact .untracked henabled rfl
  have hstart : Reproduced T E ⟨e, { config, policy }⟩ ⟨e', { config, policy }⟩ := by
    refine ⟨⟨halike, hblocks, rfl, ?_⟩, hzero, hbooks⟩
    rintro a (⟨p, b, hb, -⟩ | ⟨p, n, hn, hin, hE⟩)
    · cases hb
    · exact hsame p n hn a hin hE
  obtain ⟨hanswers, hlast⟩ := hstart.run hcareful hcareful' hproper
  have hbytes {p n : UInt64} (hn : (map R (run steps ⟨e, { config, policy }⟩)).usable p = some n)
      (a : UInt64) (hin : InRange p n.toNat a)
      (ha : a ∉ exposedRun R steps ⟨e, { config, policy }⟩ E) :
      (run steps ⟨e', { config, policy }⟩).memory a = (run steps ⟨e, { config, policy }⟩).memory a :=
    hlast.agree (.inr ⟨p, n, hn, hin, ha⟩)
  refine ⟨hanswers, hlast.usable, fun p n hn => hbytes hn, fun hE hfits p n hn => ?_⟩
  refine Memory.SameBytes.read (fun a hin => hbytes hn a hin ?_) (Nat.le_of_lt n.toNat_lt)
  rw [hE, exposedRun_empty hfits]
  exact Set.notMem_empty a

/-- A heap with a new ledger over an allocator without reuse, and what is in memory to begin with. -/
def overBytes (mem : Memory) : LedgerHeap FreshAllocator :=
  ⟨{ machine := ⟨{}, mem⟩ },
    { config := { tracking := .summary, deterministicFill := true }, policy := .keep }⟩

/-- Bytes that nobody has written. -/
def garbage : Memory :=
  fun _ => 0xaa

/-- A block is written to and shrinks, and another is handed out. -/
def shrinkingSteps : List UserStep :=
  let origin : Origin := ⟨⟨"src/jit.rs", 7, 9⟩, .empty⟩
  [.malloc 40 .compiler origin, .write 0x100000000014 #[104, 111, 115, 116],
    .realloc (some 0x100000000010) 24 .compiler origin, .malloc 8 .gc origin]

theorem same_bytes_unless_exposed_shrinkingSteps :
    FreshAllocator.twins.Alike {} {} ∧ FreshAllocator.contract.Careful ∧
      ProperRun FreshAllocator.contract shrinkingSteps (overBytes .zero) ∧
      FitsRun FreshAllocator.contract shrinkingSteps (overBytes .zero) ∧
      (map FreshAllocator.contract (run shrinkingSteps (overBytes .zero))).usable 0x100000000050 =
        some 24 ∧
      (run shrinkingSteps (overBytes garbage)).memory.read 0x100000000050 24 =
        (run shrinkingSteps (overBytes .zero)).memory.read 0x100000000050 24 := by
  have halike : FreshAllocator.twins.Alike {} {} := ⟨FreshAllocator.wellFormed_empty, rfl⟩
  have hcareful := FreshAllocator.careful_contract
  have hproper : ProperRun FreshAllocator.contract shrinkingSteps (overBytes .zero) :=
    ⟨trivial, trivial, .inl rfl, trivial, trivial⟩
  have hbefore : (map FreshAllocator.contract (run (shrinkingSteps.take 2) (overBytes .zero))).usable
      0x100000000010 = some 40 := by decide +kernel
  have hfits : FitsRun FreshAllocator.contract shrinkingSteps (overBytes .zero) := by
    refine ⟨trivial, trivial, fun k hk => ?_, trivial, trivial⟩
    obtain rfl : 40 = k := Option.some.inj (hbefore.symm.trans hk)
    decide
  have hafter : (map FreshAllocator.contract (run shrinkingSteps (overBytes .zero))).usable
      0x100000000050 = some 24 := by decide +kernel
  have hblocks : (overBytes garbage).early.blocks = (overBytes .zero).early.blocks := rfl
  have hempty (p n : UInt64) (hn : (map FreshAllocator.contract (overBytes .zero)).usable p = some n)
      (a : UInt64) (_ : InRange p n.toNat a) (_ : a ∉ (∅ : Set UInt64)) : garbage a = Memory.zero a := by
    cases hn
  obtain ⟨-, -, -, hbytes⟩ := same_bytes_unless_exposed FreshAllocator.twins hcareful hcareful
    halike hblocks nofun rfl .keep hempty hproper
  exact ⟨halike, hcareful, hproper, hfits, hafter, hbytes rfl hfits _ _ hafter⟩

/-- A block grows. -/
def growingSteps : List UserStep :=
  let origin : Origin := ⟨⟨"src/jit.rs", 7, 9⟩, .empty⟩
  [.malloc 16 .gc origin, .realloc (some 0x100000000010) 24 .gc origin]

/-- The bytes that a block gained are what memory held before, on a heap that fills new blocks. -/
theorem grown_tail_differs :
    FreshAllocator.twins.Alike {} {} ∧ FreshAllocator.contract.Careful ∧
      (overBytes .zero).ledger.config.deterministicFill = true ∧
      ProperRun FreshAllocator.contract growingSteps (overBytes .zero) ∧
      answers growingSteps (overBytes garbage) = answers growingSteps (overBytes .zero) ∧
      (map FreshAllocator.contract (run growingSteps (overBytes .zero))).usable 0x100000000040 =
        some 24 ∧
      (map FreshAllocator.contract (run growingSteps (overBytes garbage))).usable 0x100000000040 =
        some 24 ∧
      (run growingSteps (overBytes garbage)).memory.read 0x100000000040 24 ≠
        (run growingSteps (overBytes .zero)).memory.read 0x100000000040 24 := by
  refine ⟨⟨FreshAllocator.wellFormed_empty, rfl⟩, FreshAllocator.careful_contract, rfl,
    ⟨trivial, .inl rfl, trivial⟩, ?_, ?_, ?_, ?_⟩
  · decide +kernel
  · decide +kernel
  · decide +kernel
  · decide +kernel

end LedgerHeap

end HostServices
