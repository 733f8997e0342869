import HostServices.Proofs.Heap.Footprint
import HostServices.Proofs.Heap.Reproducible
import HostServices.Proofs.Host.Journal

/-!
# A heap without tracking

Without tracking a heap adds nothing to its host but the filling of new blocks. A step comes to what
the host does of its own when it is asked for at least one byte (`UserStep.direct`), and then the bytes
of a new block are filled (`UserStep.filled`); this is `UserStep.passesOn`, whatever ceilings are set
and whatever pointers are given. So runs of the heap are runs of the host
(`LedgerHeap.off_refines_host`), and filling is not noticed by hosts that do not look at memory
(`HostAllocator.Blind`).
-/

namespace HostServices

open Memory (InRange)

/-! ## Hosts that do not look at memory -/

/-- What the host answers, and the state it is left in, is up to its state alone. -/
structure HostAllocator.Blind (σ : Type) [HostAllocator σ] : Prop where
  malloc (n : UInt64) (s : σ) (mem mem' : Memory) :
    (malloc n ⟨s, mem'⟩).1 = (malloc n ⟨s, mem⟩).1 ∧
      (malloc n ⟨s, mem'⟩).2.host = (malloc n ⟨s, mem⟩).2.host
  realloc (p n : UInt64) (s : σ) (mem mem' : Memory) :
    (realloc p n ⟨s, mem'⟩).1 = (realloc p n ⟨s, mem⟩).1 ∧
      (realloc p n ⟨s, mem'⟩).2.host = (realloc p n ⟨s, mem⟩).2.host
  free (p : UInt64) (s : σ) (mem mem' : Memory) :
    (free p ⟨s, mem'⟩).host = (free p ⟨s, mem⟩).host

theorem FreshAllocator.blind : HostAllocator.Blind FreshAllocator where
  malloc := malloc_alike
  realloc := realloc_alike
  free _ _ _ _ := rfl

/-- Writing calls down takes no look at memory. -/
theorem HostAllocator.Blind.journal {σ : Type} [HostAllocator σ] (h : Blind σ) : Blind (Journal σ) where
  malloc n j mem mem' := by
    obtain ⟨hanswer, hhost⟩ := h.malloc n j.inner mem mem'
    exact ⟨hanswer, congrArg₂ (fun s p => (⟨s, .malloc n p :: j.calls⟩ : Journal σ)) hhost hanswer⟩
  realloc p n j mem mem' := by
    obtain ⟨hanswer, hhost⟩ := h.realloc p n j.inner mem mem'
    exact ⟨hanswer, congrArg₂ (fun s q => (⟨s, .realloc p n q :: j.calls⟩ : Journal σ)) hhost hanswer⟩
  free p j mem mem' :=
    congrArg (fun s => (⟨s, .free p :: j.calls⟩ : Journal σ)) (h.free p j.inner mem mem')

/-! ## Steps of the host -/

/-- Memory with a new block filled as the configuration asks. -/
def MemoryConfig.fillNew (config : MemoryConfig) (p n : UInt64) (mem : Memory) : Memory :=
  if config.deterministicFill then mem.fill p n 0
  else if config.padFill then mem.fill p n padByte
  else mem

theorem MemoryConfig.fillNew_of_not_inRange {p n a : UInt64} (h : ¬ InRange p n.toNat a)
    (config : MemoryConfig) (mem : Memory) : config.fillNew p n mem a = mem a := by
  unfold fillNew
  split
  · exact Memory.fill_of_not_inRange h
  · split
    · exact Memory.fill_of_not_inRange h
    · rfl

namespace UserStep

/-- The number of bytes that a step asks for in a new block: at least one. -/
def newLength? : UserStep → Option UInt64
  | malloc n .. | realloc none n .. => some (Word.max n 1)
  | _ => none

section steps

variable {σ : Type} [HostAllocator σ]

/-- A step made of the host itself. -/
def direct : UserStep → Machine σ → Option UInt64 × Machine σ
  | malloc n .., m | realloc none n .., m => HostAllocator.malloc (Word.max n 1) m
  | realloc (some p) n .., m => HostAllocator.realloc p (Word.max n 1) m
  | free none, m => (none, m)
  | free (some p), m => (none, HostAllocator.free p m)
  | write start bytes, m => (none, { m with memory := m.memory.write start bytes })

/-- A step made of the host itself, with a new block filled. -/
def filled (config : MemoryConfig) (step : UserStep) (m : Machine σ) : Option UInt64 × Machine σ :=
  match step.newLength?, step.direct m with
  | some n, (some p, m) => (some p, { m with memory := config.fillNew p n m.memory })
  | _, out => out

/-- Steps one after another, and what they answer. -/
def runBy (f : UserStep → Machine σ → Option UInt64 × Machine σ) :
    List UserStep → Machine σ → List (Option UInt64) × Machine σ
  | [], m => ([], m)
  | step :: steps, m =>
    let (answer, m) := f step m
    let (answers, m) := runBy f steps m
    (answer :: answers, m)

variable {step : UserStep} {steps : List UserStep} {config : MemoryConfig} {m m' : Machine σ}
  {p n : UInt64}

theorem filled_of_old (hn : step.newLength? = none) : step.filled config m = step.direct m := by
  unfold filled
  rw [hn]

theorem filled_refused (hdirect : step.direct m = (none, m')) :
    step.filled config m = (none, m') := by
  unfold filled
  rw [hdirect]
  cases step.newLength? <;> rfl

theorem filled_granted (hn : step.newLength? = some n) (hdirect : step.direct m = (some p, m')) :
    step.filled config m = (some p, { m' with memory := config.fillNew p n m'.memory }) := by
  unfold filled
  rw [hn, hdirect]

/-- Only bytes of a new block are filled. -/
theorem filled_frame (config : MemoryConfig) (step : UserStep) (m : Machine σ) :
    (step.filled config m).1 = (step.direct m).1 ∧
      (step.filled config m).2.host = (step.direct m).2.host ∧
      ∀ a, (step.filled config m).2.memory a ≠ (step.direct m).2.memory a →
        ∃ p n, (step.direct m).1 = some p ∧ step.newLength? = some n ∧ InRange p n.toNat a := by
  unfold filled
  split
  · next n p m' hn hdirect =>
    rw [hdirect]
    refine ⟨rfl, rfl, fun a ha => ⟨p, n, rfl, hn, ?_⟩⟩
    exact not_not.1 fun hin => ha (config.fillNew_of_not_inRange hin m'.memory)
  · exact ⟨rfl, rfl, fun a ha => absurd rfl ha⟩

theorem direct_blind (hblind : HostAllocator.Blind σ) (step : UserStep) (hhost : m'.host = m.host) :
    (step.direct m').1 = (step.direct m).1 ∧ (step.direct m').2.host = (step.direct m).2.host := by
  obtain ⟨s, mem⟩ := m
  obtain ⟨s', mem'⟩ := m'
  obtain rfl : s' = s := hhost
  cases step with
  | malloc n c origin => exact hblind.malloc _ s' mem mem'
  | realloc p n c origin =>
    cases p with
    | none => exact hblind.malloc _ s' mem mem'
    | some p => exact hblind.realloc p _ s' mem mem'
  | free p =>
    cases p with
    | none => exact ⟨rfl, rfl⟩
    | some p => exact ⟨rfl, hblind.free p s' mem mem'⟩
  | write start bytes => exact ⟨rfl, rfl⟩

/-- A host that does not look at memory does not notice that new blocks are filled. -/
theorem runBy_filled_blind (hblind : HostAllocator.Blind σ) (config : MemoryConfig)
    (steps : List UserStep) (hhost : m'.host = m.host) :
    (runBy (filled config) steps m').1 = (runBy direct steps m).1 ∧
      (runBy (filled config) steps m').2.host = (runBy direct steps m).2.host := by
  induction steps generalizing m m' with
  | nil => exact ⟨rfl, hhost⟩
  | cons step steps ih =>
    obtain ⟨hanswer, hleft, -⟩ := filled_frame config step m'
    obtain ⟨hanswer', hleft'⟩ := direct_blind hblind step hhost
    obtain ⟨hanswers, hlast⟩ := ih (hleft.trans hleft')
    exact ⟨congrArg₂ List.cons (hanswer.trans hanswer') hanswers, hlast⟩

end steps

/-! ## Steps of the heap -/

section untracked

variable {σ : Type} [HostAllocator σ] {h : LedgerHeap σ}

/-- The heap makes a step as the host does, and fills the new block. -/
def PassesOn (step : UserStep) (h : LedgerHeap σ) : Prop :=
  step.answer h = .ok (step.filled h.ledger.config h.early.machine).1 ∧
    (step.perform h).early.machine = (step.filled h.ledger.config h.early.machine).2

variable (henabled : h.ledger.enabled = false)
include henabled

theorem passesOn_malloc (n : UInt64) (c : Category) (origin : Origin) :
    (malloc n c origin).PassesOn h := by
  have hlimit := Ledger.limitCheck_untracked henabled (Word.max n 1) c
  have hsize := Ledger.add?_overhead_untracked henabled (Word.max n 1)
  unfold PassesOn answer perform
  rcases hcall : (malloc n c origin).direct h.early.machine with ⟨_ | p, m⟩
  · rw [filled_refused hcall]
    dsimp only
    rw [LedgerHeap.malloc_refused hlimit hsize hcall]
    exact ⟨rfl, rfl⟩
  · obtain ⟨hstate, hresult⟩ : ((LedgerHeap.recordGranted p (Word.max n 1) c origin).run
        (h.setMachine m)).state = _ ∧ _ := LedgerHeap.recordGranted_untracked henabled
    rw [filled_granted rfl hcall]
    dsimp only
    rw [LedgerHeap.malloc_granted hlimit hsize hcall, hresult, hstate]
    exact ⟨rfl, rfl⟩

theorem passesOn_realloc (p n : UInt64) (c : Category) (origin : Origin) :
    (realloc (some p) n c origin).PassesOn h := by
  unfold PassesOn answer perform
  rw [filled_of_old rfl]
  unfold direct
  dsimp only
  rcases hcall : HostAllocator.realloc p (Word.max n 1) h.early.machine with ⟨_ | q, m⟩
  · cases hearly : h.early.blocks.contains p with
    | true =>
      rw [LedgerHeap.run_realloc_early hearly, LedgerHeap.run_onEarly, EarlyHeap.realloc_refused hcall]
      exact ⟨rfl, rfl⟩
    | false =>
      rw [LedgerHeap.run_realloc_untracked henabled hearly, LedgerHeap.reallocUntracked_refused hcall]
      exact ⟨rfl, rfl⟩
  · cases hearly : h.early.blocks.contains p with
    | true =>
      rw [LedgerHeap.run_realloc_early hearly, LedgerHeap.run_onEarly, EarlyHeap.realloc_granted hcall]
      exact ⟨rfl, rfl⟩
    | false =>
      obtain ⟨hstate, hresult⟩ := LedgerHeap.reallocUntracked_granted hcall
      rw [LedgerHeap.run_realloc_untracked henabled hearly, hstate, hresult]
      exact ⟨rfl, rfl⟩

theorem passesOn_free (p : UInt64) : (free (some p)).PassesOn h := by
  unfold PassesOn answer perform
  rw [filled_of_old rfl]
  dsimp only
  cases hearly : h.early.blocks.contains p with
  | true =>
    rw [LedgerHeap.run_free_early hearly]
    exact ⟨rfl, rfl⟩
  | false =>
    obtain ⟨hstate, hresult⟩ := LedgerHeap.free_untracked henabled hearly
    rw [hstate, hresult]
    exact ⟨rfl, rfl⟩

/-- Without tracking, every step is passed on. -/
theorem passesOn (step : UserStep) : step.PassesOn h := by
  cases step with
  | malloc n c origin => exact passesOn_malloc henabled n c origin
  | realloc p n c origin =>
    cases p with
    | none => exact passesOn_malloc henabled n c origin
    | some p => exact passesOn_realloc henabled p n c origin
  | free p =>
    cases p with
    | none => exact ⟨rfl, rfl⟩
    | some p => exact passesOn_free henabled p
  | write start bytes => exact ⟨rfl, rfl⟩

/-- A run without tracking is a run of the host, with new blocks filled. -/
theorem run_passesOn (steps : List UserStep) :
    answers steps h = (runBy (filled h.ledger.config) steps h.early.machine).1.map .ok ∧
      (run steps h).early.machine = (runBy (filled h.ledger.config) steps h.early.machine).2 ∧
      (run steps h).ledger = h.ledger := by
  induction steps generalizing h with
  | nil => exact ⟨rfl, rfl, rfl⟩
  | cons step steps ih =>
    obtain ⟨hanswer, hmachine⟩ := passesOn henabled step
    have hledger := ledger_perform henabled step
    obtain ⟨hanswers, hlast, hledger'⟩ := ih (h := step.perform h) (hledger.symm ▸ henabled)
    rw [hledger, hmachine] at hanswers hlast
    refine ⟨?_, hlast, hledger'.trans hledger⟩
    rw [answers, hanswer, hanswers]
    rfl

end untracked

end UserStep

namespace LedgerHeap

open UserStep

/-- Without tracking a heap refines its host, whatever else is configured and whatever blocks are from
before the ledger. A run answers and leaves the machine, with the journal and memory, as the same run
of the host does where new blocks are filled: each request is passed on, for at least one byte, and
none is refused or rejected on the way. The ledger stays as it was installed, with nothing live,
counted or reported. Filling changes bytes of the new block only, and a host that does not look at
memory does not notice it: then answers and calls are those of the host alone. -/
theorem off_refines_host {σ : Type} [HostAllocator σ] {config : MemoryConfig}
    (hoff : config.tracking = .off) (policy : CorruptionPolicy) (e : EarlyHeap (Journal σ))
    (steps : List UserStep) :
    answers steps ⟨e, { config, policy }⟩ =
        (runBy (filled config) steps e.machine).1.map .ok ∧
      (run steps ⟨e, { config, policy }⟩).early.machine = (runBy (filled config) steps e.machine).2 ∧
      (run steps ⟨e, { config, policy }⟩).ledger = { config, policy } ∧
      (∀ (step : UserStep) (m : Machine (Journal σ)),
        (step.filled config m).1 = (step.direct m).1 ∧
          (step.filled config m).2.host = (step.direct m).2.host ∧
          ∀ a, (step.filled config m).2.memory a ≠ (step.direct m).2.memory a →
            ∃ p n, (step.direct m).1 = some p ∧ step.newLength? = some n ∧ InRange p n.toNat a) ∧
      (HostAllocator.Blind σ →
        answers steps ⟨e, { config, policy }⟩ = (runBy direct steps e.machine).1.map .ok ∧
          (run steps ⟨e, { config, policy }⟩).early.machine.host =
            (runBy direct steps e.machine).2.host) := by
  have henabled : Ledger.enabled { config, policy } = false := by
    unfold Ledger.enabled Ledger.level
    rw [hoff]
    rfl
  obtain ⟨hanswers, hmachine, hledger⟩ := run_passesOn (h := ⟨e, { config, policy }⟩) henabled steps
  refine ⟨hanswers, hmachine, hledger, filled_frame config, fun hblind => ?_⟩
  obtain ⟨hsame, hhost⟩ :=
    runBy_filled_blind hblind.journal config steps (rfl : e.machine.host = e.machine.host)
  rw [hanswers, hmachine]
  exact ⟨congrArg (List.map Except.ok) hsame, hhost⟩

/-- One block before the ledger, over an allocator without reuse. -/
def bootHeap : EarlyHeap (Journal FreshAllocator) :=
  ((EarlyHeap.malloc 24).run { machine := ⟨⟨{}, []⟩, Memory.zero⟩ }).state

/-- Nothing is tracked, and there is a ceiling of one byte. -/
def offWithCeiling : MemoryConfig :=
  { mallocLimit := MallocLimit.none.withTotal 1 }

/-- Blocks are requested above the ceiling, one of them with no bytes, the block from before the ledger
is resized, and what is no block is released. -/
def ceilingSteps : List UserStep :=
  let origin : Origin := ⟨⟨"src/jit.rs", 7, 9⟩, .empty⟩
  [.malloc 100 .compiler origin, .malloc 0 .gc origin,
    .realloc (some 0x100000000000) 64 .gc origin, .free (some 0x100000000020), .free (some 0x1234)]

theorem off_refines_host_ceilingSteps :
    offWithCeiling.tracking = .off ∧ HostAllocator.Blind FreshAllocator ∧
      answers ceilingSteps ⟨bootHeap, { config := offWithCeiling }⟩ =
        [.ok (some 0x100000000020), .ok (some 0x100000000090), .ok (some 0x1000000000a0), .ok none,
          .ok none] ∧
      (run ceilingSteps ⟨bootHeap, { config := offWithCeiling }⟩).ledger =
        { config := offWithCeiling } ∧
      (run ceilingSteps ⟨bootHeap, { config := offWithCeiling }⟩).early.machine.host.calls =
        [.free 0x1234, .free 0x100000000020,
          .realloc 0x100000000000 64 (some 0x1000000000a0), .malloc 1 (some 0x100000000090),
          .malloc 100 (some 0x100000000020), .malloc 24 (some 0x100000000000)] := by
  have hoff : offWithCeiling.tracking = .off := rfl
  obtain ⟨-, -, hledger, -, hdirect⟩ :=
    off_refines_host hoff .abort bootHeap ceilingSteps
  obtain ⟨hanswers, hhost⟩ := hdirect FreshAllocator.blind
  refine ⟨hoff, FreshAllocator.blind, ?_, hledger, ?_⟩
  · rw [hanswers]
    decide +kernel
  · rw [hhost]
    rfl

end LedgerHeap

end HostServices
