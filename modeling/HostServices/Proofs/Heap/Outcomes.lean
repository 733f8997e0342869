import HostServices.Heap
import HostServices.Proofs.Heap.EarlyBlocks
import HostServices.Proofs.Ledger.Record

/-!
# What heap operations leave

The state and the result of each operation of a heap, case by case. A request is stopped by a
ceiling, by a size that is no word, or by the host; a block that is given is in the early table,
not live, damaged or intact. What fills and checks the bytes of blocks changes memory and reports
only.
-/

namespace HostServices

/-! ## Before a ledger -/

namespace EarlyHeap

variable {σ : Type} [HostAllocator σ] {h : EarlyHeap σ} {p q n : UInt64} {m : Machine σ}

theorem run_hostMalloc {answer : Option UInt64}
    (hcall : HostAllocator.malloc n h.machine = (answer, m)) :
    (hostMalloc n).run h = ⟨.ok answer, { h with machine := m }, []⟩ := by
  show (⟨.ok (HostAllocator.malloc n h.machine).1,
    { h with machine := (HostAllocator.malloc n h.machine).2 }, []⟩ : Outcome _ _) = _
  rw [hcall]

theorem run_hostRealloc {answer : Option UInt64}
    (hcall : HostAllocator.realloc p n h.machine = (answer, m)) :
    (hostRealloc p n).run h = ⟨.ok answer, { h with machine := m }, []⟩ := by
  show (⟨.ok (HostAllocator.realloc p n h.machine).1,
    { h with machine := (HostAllocator.realloc p n h.machine).2 }, []⟩ : Outcome _ _) = _
  rw [hcall]

theorem malloc_refused (hcall : HostAllocator.malloc (Word.max n 1) h.machine = (none, m)) :
    (malloc n).run h = ⟨.ok none, { h with machine := m }, []⟩ := by
  unfold malloc
  rw [Op.run_bind_of_run (run_hostMalloc hcall)]
  rfl

theorem malloc_granted (hcall : HostAllocator.malloc (Word.max n 1) h.machine = (some p, m)) :
    ((malloc n).run h).state = remember p { h with machine := m } ∧
      ((malloc n).run h).result = .ok (some p) := by
  unfold malloc
  rw [Op.run_bind_of_run (run_hostMalloc hcall)]
  exact ⟨rfl, rfl⟩

theorem realloc_refused (hcall : HostAllocator.realloc p (Word.max n 1) h.machine = (none, m)) :
    (realloc (some p) n).run h = ⟨.ok none, { h with machine := m }, []⟩ := by
  unfold realloc
  dsimp only
  rw [Op.run_bind_of_run (run_hostRealloc hcall)]
  rfl

theorem realloc_granted (hcall : HostAllocator.realloc p (Word.max n 1) h.machine = (some q, m)) :
    (realloc (some p) n).run h =
      ⟨.ok (some q), remember q (forget p { h with machine := m }), []⟩ := by
  unfold realloc
  dsimp only
  rw [Op.run_bind_of_run (run_hostRealloc hcall)]
  rfl

end EarlyHeap

namespace LedgerHeap

variable {σ : Type} {h : LedgerHeap σ}

/-- The heap with another machine. -/
def setMachine (h : LedgerHeap σ) (m : Machine σ) : LedgerHeap σ :=
  { h with early := { h.early with machine := m } }

/-- The heap with one more report in its ledger. -/
def noted (h : LedgerHeap σ) (c : Corruption) : LedgerHeap σ :=
  { h with ledger := h.ledger.noted c }

theorem run_onEarly {α : Type} (op : Op (EarlyHeap σ) α) (h : LedgerHeap σ) :
    (onEarly op).run h =
      ⟨(op.run h.early).result, { h with early := (op.run h.early).state }, (op.run h.early).events⟩ :=
  rfl

theorem run_onTracked {α : Type} (op : Op TrackedMemory α) (h : LedgerHeap σ) :
    (onTracked op).run h =
      ⟨(op.run h.tracked).result, h.setTracked (op.run h.tracked).state, (op.run h.tracked).events⟩ :=
  rfl

/-! ## The bytes of blocks -/

/-- Memory with a new block filled. -/
def freshFill (h : LedgerHeap σ) (inner n : UInt64) : Memory :=
  if h.ledger.config.deterministicFill then h.memory.fill inner n 0
  else if h.ledger.config.padFill then h.memory.fill inner n MemoryConfig.padByte
  else h.memory

/-- Memory with the grown part of a block filled. -/
def grownFill (h : LedgerHeap σ) (inner oldSize n : UInt64) : Memory :=
  if oldSize < n && h.ledger.config.padFill && !h.ledger.config.deterministicFill then
    h.memory.fill (inner + oldSize) (n - oldSize) MemoryConfig.padByte
  else h.memory

theorem run_fillFresh (inner n : UInt64) (h : LedgerHeap σ) :
    (fillFresh inner n).run h = ⟨.ok (), h.setMemory (h.freshFill inner n), []⟩ := by
  unfold fillFresh freshFill
  rw [Op.run_get_bind]
  cases hzero : h.ledger.config.deterministicFill <;> cases hpad : h.ledger.config.padFill <;>
    simp only [hzero, hpad, Bool.false_eq_true, if_true, if_false] <;> rfl

theorem run_fillGrown (inner oldSize n : UInt64) (h : LedgerHeap σ) :
    (fillGrown inner oldSize n).run h = ⟨.ok (), h.setMemory (h.grownFill inner oldSize n), []⟩ := by
  unfold fillGrown grownFill
  rw [Op.run_get_bind]
  dsimp only
  cases decide (oldSize < n) && h.ledger.config.padFill && !h.ledger.config.deterministicFill <;> rfl

theorem run_catchPointer (operation : String) (p : UInt64) (h : LedgerHeap σ) :
    ((catchPointer operation p).run h).state = h ∧
      ((catchPointer operation p).run h).result = .ok () := by
  unfold catchPointer
  rw [Op.run_get_bind]
  by_cases hp : h.ledger.config.catchPointer = some p <;> simp only [hp, if_true, if_false] <;>
    exact ⟨rfl, rfl⟩

/-- The warning about an address that the configuration asks to catch. -/
def caught (h : LedgerHeap σ) (operation : String) (p : UInt64) : List Event :=
  ((catchPointer operation p).run h).events

/-- The hash of the bytes that a resize has to keep, if copies are checked. -/
def keptHash (h : LedgerHeap σ) (start len : UInt64) : Option UInt64 :=
  if h.ledger.config.verifyReallocCopy then some (checksum (h.memory.read start len.toNat)) else none

theorem run_keptChecksum (start len : UInt64) (h : LedgerHeap σ) :
    (keptChecksum start len).run h = ⟨.ok (h.keptHash start len), h, []⟩ := rfl

section verifyCopy

variable {before : Option UInt64} {old new kept : UInt64}

theorem verifyCopy_kept (old : UInt64)
    (hkept : ∀ expected, before = some expected →
      checksum (h.memory.read new kept.toNat) = expected) :
    ((verifyCopy before old new kept).run h).state = h ∧
      ((verifyCopy before old new kept).run h).result = .ok () := by
  unfold verifyCopy
  cases before with
  | none => exact ⟨rfl, rfl⟩
  | some expected =>
    simp only [Op.state_get_bind, Op.result_get_bind, hkept expected rfl, ne_eq, not_true_eq_false,
      if_false]
    exact ⟨rfl, rfl⟩

theorem verifyCopy_lost {expected : UInt64}
    (hlost : checksum (h.memory.read new kept.toNat) ≠ expected) :
    ((verifyCopy (some expected) old new kept).run h).state =
        h.noted ⟨.realloc, old, .reallocCopy kept⟩ ∧
      ((verifyCopy (some expected) old new kept).run h).result =
        h.ledger.policy.answer ⟨.realloc, old, .reallocCopy kept⟩ () := by
  unfold verifyCopy
  simp only [Op.state_get_bind, Op.result_get_bind, hlost, ne_eq, not_false_eq_true, if_true]
  refine ⟨?_, Ledger.result_reportCorruption _ h.ledger⟩
  show h.setTracked ⟨((Ledger.reportCorruption _).run h.ledger).state, h.memory⟩ = _
  rw [Ledger.state_reportCorruption]
  rfl

end verifyCopy

/-! ## Calls of the host -/

section host

variable [HostAllocator σ] {p n : UInt64} {answer : Option UInt64} {m : Machine σ}

theorem run_hostMalloc (hcall : HostAllocator.malloc n h.early.machine = (answer, m)) :
    (onEarly (EarlyHeap.hostMalloc n)).run h = ⟨.ok answer, h.setMachine m, []⟩ := by
  rw [run_onEarly, EarlyHeap.run_hostMalloc hcall]
  rfl

theorem run_hostRealloc (hcall : HostAllocator.realloc p n h.early.machine = (answer, m)) :
    (onEarly (EarlyHeap.hostRealloc p n)).run h = ⟨.ok answer, h.setMachine m, []⟩ := by
  rw [run_onEarly, EarlyHeap.run_hostRealloc hcall]
  rfl

end host

/-! ## Allocation -/

theorem run_exceedsLimit_of_error {n : UInt64} {c : Category} {e : MemoryError}
    (hlimit : h.ledger.limitCheck n c = .error e) :
    ((onLedger (Ledger.exceedsLimit n c)).run h).state = h ∧
      ((onLedger (Ledger.exceedsLimit n c)).run h).result = .ok true := by
  show h.setTracked ⟨((Ledger.exceedsLimit n c).run h.ledger).state, h.memory⟩ = h ∧
    ((Ledger.exceedsLimit n c).run h.ledger).result = _
  unfold Ledger.exceedsLimit
  rw [Op.run_get_bind, hlimit]
  exact ⟨rfl, rfl⟩

theorem run_exceedsLimit_of_ok {n : UInt64} {c : Category} (hlimit : h.ledger.limitCheck n c = .ok ()) :
    (onLedger (Ledger.exceedsLimit n c)).run h = ⟨.ok false, h, []⟩ := by
  show (⟨((Ledger.exceedsLimit n c).run h.ledger).result,
    h.setTracked ⟨((Ledger.exceedsLimit n c).run h.ledger).state, h.memory⟩,
    ((Ledger.exceedsLimit n c).run h.ledger).events⟩ : Outcome _ _) = _
  unfold Ledger.exceedsLimit
  rw [Op.run_get_bind, hlimit]
  rfl

variable {p q n inner outer outerSize : UInt64} {m : Machine σ} {c : Category} {origin : Origin}
  {b : LiveBlock} {kind : Corruption.Kind} {t : TrackedMemory}

/-- Record a block that the host granted. -/
def recordGranted (outer n : UInt64) (c : Category) (origin : Origin) :
    Op (LedgerHeap σ) (Option UInt64) := do
  let inner ← onTracked (TrackedMemory.recordMalloc outer n c origin)
  fillFresh inner n
  catchPointer "malloc" inner
  return some inner

section recordGranted

variable (hstate : ((TrackedMemory.recordMalloc outer n c origin).run h.tracked).state = t)
include hstate

theorem recordGranted_of_ok
    (hresult : ((TrackedMemory.recordMalloc outer n c origin).run h.tracked).result = .ok inner) :
    ((recordGranted outer n c origin).run h).state =
        (h.setTracked t).setMemory ((h.setTracked t).freshFill inner n) ∧
      ((recordGranted outer n c origin).run h).result = .ok (some inner) := by
  have hrecord : ((onTracked (TrackedMemory.recordMalloc outer n c origin)).run h).result =
      .ok inner := hresult
  obtain ⟨hcatch, hcatch'⟩ := run_catchPointer "malloc" inner
    ((h.setTracked t).setMemory ((h.setTracked t).freshFill inner n))
  unfold recordGranted
  rw [Op.state_bind_of_ok hrecord, Op.result_bind_of_ok hrecord, onTracked, Op.state_zoom, hstate,
    Op.run_bind_of_run (run_fillFresh inner n _), Op.state_bind_of_ok hcatch',
    Op.result_bind_of_ok hcatch', hcatch]
  exact ⟨rfl, rfl⟩

theorem recordGranted_of_error {e : Stop}
    (hresult : ((TrackedMemory.recordMalloc outer n c origin).run h.tracked).result = .error e) :
    ((recordGranted outer n c origin).run h).state = h.setTracked t ∧
      ((recordGranted outer n c origin).run h).result = .error e := by
  have hrecord : ((onTracked (TrackedMemory.recordMalloc outer n c origin)).run h).result =
      .error e := hresult
  unfold recordGranted
  rw [Op.state_bind_of_error hrecord, Op.result_bind_of_error hrecord, onTracked, Op.state_zoom,
    hstate]
  exact ⟨rfl, rfl⟩

end recordGranted

variable [HostAllocator σ]

section malloc

theorem malloc_overLimit {e : MemoryError} (hlimit : h.ledger.limitCheck (Word.max n 1) c = .error e) :
    ((malloc n c origin).run h).state = h ∧ ((malloc n c origin).run h).result = .ok none := by
  obtain ⟨hstate, hresult⟩ := run_exceedsLimit_of_error hlimit
  unfold malloc
  dsimp only
  rw [Op.state_bind_of_ok hresult, Op.result_bind_of_ok hresult, hstate]
  exact ⟨rfl, rfl⟩

variable (hlimit : h.ledger.limitCheck (Word.max n 1) c = .ok ())
include hlimit

theorem malloc_tooLarge (hsize : Word.add? (Word.max n 1) h.ledger.overhead = none) :
    (malloc n c origin).run h = ⟨.ok none, h, []⟩ := by
  unfold malloc
  dsimp only
  rw [Op.run_bind_of_run (run_exceedsLimit_of_ok hlimit)]
  simp only [Bool.false_eq_true, if_false, Op.run_get_bind, hsize]
  rfl

variable (hsize : Word.add? (Word.max n 1) h.ledger.overhead = some outerSize)
include hsize

theorem malloc_refused (hcall : HostAllocator.malloc outerSize h.early.machine = (none, m)) :
    (malloc n c origin).run h = ⟨.ok none, h.setMachine m, []⟩ := by
  unfold malloc
  dsimp only
  rw [Op.run_bind_of_run (run_exceedsLimit_of_ok hlimit)]
  simp only [Bool.false_eq_true, if_false, Op.run_get_bind, hsize]
  rw [Op.run_bind_of_run (run_hostMalloc hcall)]
  rfl

theorem malloc_granted (hcall : HostAllocator.malloc outerSize h.early.machine = (some outer, m)) :
    (malloc n c origin).run h =
      (recordGranted outer (Word.max n 1) c origin).run (h.setMachine m) := by
  unfold malloc
  dsimp only
  rw [Op.run_bind_of_run (run_exceedsLimit_of_ok hlimit)]
  simp only [Bool.false_eq_true, if_false, Op.run_get_bind, hsize]
  rw [Op.run_bind_of_run (run_hostMalloc hcall)]
  rfl

end malloc

/-- What a request for `n` bytes can come to: the host is not asked, or has no block, or has one,
which is recorded. -/
inductive Allocates (h : LedgerHeap σ) (n : UInt64) (c : Category) (origin : Origin)
    (out : Outcome (LedgerHeap σ) (Option UInt64)) : Prop
  | unasked (hstate : out.state = h) (hresult : out.result = .ok none)
  | refused {outerSize : UInt64} {m : Machine σ}
    (hsize : Word.add? n h.ledger.overhead = some outerSize)
    (hcall : HostAllocator.malloc outerSize h.early.machine = (none, m))
    (hrun : out = ⟨.ok none, h.setMachine m, []⟩)
  | granted {outerSize outer : UInt64} {m : Machine σ} (hlimit : h.ledger.limitCheck n c = .ok ())
    (hsize : Word.add? n h.ledger.overhead = some outerSize)
    (hcall : HostAllocator.malloc outerSize h.early.machine = (some outer, m))
    (hrun : out = (recordGranted outer n c origin).run (h.setMachine m))

theorem malloc_allocates (n : UInt64) (c : Category) (origin : Origin) (h : LedgerHeap σ) :
    h.Allocates (Word.max n 1) c origin ((malloc n c origin).run h) := by
  cases hlimit : h.ledger.limitCheck (Word.max n 1) c with
  | error e => exact .unasked (malloc_overLimit hlimit).1 (malloc_overLimit hlimit).2
  | ok u =>
    cases hsize : Word.add? (Word.max n 1) h.ledger.overhead with
    | none =>
      have hrun : (malloc n c origin).run h = _ := malloc_tooLarge hlimit hsize
      exact .unasked (congrArg (·.state) hrun) (congrArg (·.result) hrun)
    | some outerSize =>
      rcases hcall : HostAllocator.malloc outerSize h.early.machine with ⟨_ | outer, m⟩
      · exact .refused hsize hcall (malloc_refused hlimit hsize hcall)
      · exact .granted hlimit hsize hcall (malloc_granted hlimit hsize hcall)

/-! ## Resizing -/

/-- The heap with a removed block put back. -/
def revived (r : Removed) (h : LedgerHeap σ) : LedgerHeap σ :=
  h.setTracked (TrackedMemory.revive r h.tracked)

/-- Record a block that the host granted for the one at `old`, and check and fill its bytes. -/
def recordResized (before : Option UInt64) (old oldSize outer n : UInt64) (c : Category)
    (origin : Origin) : Op (LedgerHeap σ) (Option UInt64) := do
  let new ← onTracked (TrackedMemory.recordMalloc outer n c origin)
  verifyCopy before old new (Word.min oldSize n)
  fillGrown new oldSize n
  catchPointer "realloc" new
  return some new

section recordResized

variable {before : Option UInt64} {old oldSize : UInt64}
  (hstate : ((TrackedMemory.recordMalloc outer n c origin).run h.tracked).state = t)
include hstate

omit [HostAllocator σ] in
theorem recordResized_of_ok
    (hresult : ((TrackedMemory.recordMalloc outer n c origin).run h.tracked).result = .ok inner)
    (hkept : ∀ expected, before = some expected →
      checksum (t.memory.read inner (Word.min oldSize n).toNat) = expected) :
    ((recordResized before old oldSize outer n c origin).run h).state =
        (h.setTracked t).setMemory ((h.setTracked t).grownFill inner oldSize n) ∧
      ((recordResized before old oldSize outer n c origin).run h).result = .ok (some inner) := by
  have hrecord : ((onTracked (TrackedMemory.recordMalloc outer n c origin)).run h).result =
      .ok inner := hresult
  obtain ⟨hverify, hverify'⟩ := verifyCopy_kept (h := h.setTracked t) old hkept
  obtain ⟨hcatch, hcatch'⟩ := run_catchPointer "realloc" inner
    ((h.setTracked t).setMemory ((h.setTracked t).grownFill inner oldSize n))
  unfold recordResized
  rw [Op.state_bind_of_ok hrecord, Op.result_bind_of_ok hrecord, onTracked, Op.state_zoom, hstate,
    Op.state_bind_of_ok hverify', Op.result_bind_of_ok hverify', hverify,
    Op.run_bind_of_run (run_fillGrown inner oldSize n _), Op.state_bind_of_ok hcatch',
    Op.result_bind_of_ok hcatch', hcatch]
  exact ⟨rfl, rfl⟩

omit [HostAllocator σ] in
theorem recordResized_of_error {e : Stop}
    (hresult : ((TrackedMemory.recordMalloc outer n c origin).run h.tracked).result = .error e) :
    ((recordResized before old oldSize outer n c origin).run h).state = h.setTracked t ∧
      ((recordResized before old oldSize outer n c origin).run h).result = .error e := by
  have hrecord : ((onTracked (TrackedMemory.recordMalloc outer n c origin)).run h).result =
      .error e := hresult
  unfold recordResized
  rw [Op.state_bind_of_error hrecord, Op.result_bind_of_error hrecord, onTracked, Op.state_zoom,
    hstate]
  exact ⟨rfl, rfl⟩

end recordResized

/-- Resize a removed block that no ceiling stands against. -/
def resizeWithin (r : Removed) (n outerSize : UInt64) (c : Category) (origin : Origin) :
    Op (LedgerHeap σ) (Option UInt64) := do
  let before ← keptChecksum r.inner (Word.min r.size n)
  match ← onEarly (EarlyHeap.hostRealloc ((← get).ledger.outerOf r.inner) outerSize) with
  | none =>
    revive r
    return none
  | some outer =>
    modify fun h => { h with ledger := h.ledger.deaccount r }
    recordResized before r.inner r.size outer n c origin

section resizeRemoved

variable {r : Removed}

theorem resizeRemoved_overLimit {e : MemoryError} (hgrow : r.size < n)
    (hlimit : h.ledger.limitCheck (n - r.size) c = .error e) :
    ((resizeRemoved r n outerSize c origin).run h).state = h.revived r ∧
      ((resizeRemoved r n outerSize c origin).run h).result = .ok none := by
  obtain ⟨hstate, hresult⟩ := run_exceedsLimit_of_error hlimit
  unfold resizeRemoved
  simp only [hgrow, if_true]
  rw [Op.state_bind_of_ok hresult, Op.result_bind_of_ok hresult, hstate]
  exact ⟨rfl, rfl⟩

variable (hlimit : r.size < n → h.ledger.limitCheck (n - r.size) c = .ok ())
include hlimit

theorem resizeRemoved_within :
    (resizeRemoved r n outerSize c origin).run h = (resizeWithin r n outerSize c origin).run h := by
  unfold resizeRemoved
  by_cases hgrow : r.size < n
  · simp only [hgrow, if_true]
    rw [Op.run_bind_of_run (run_exceedsLimit_of_ok (hlimit hgrow))]
    rfl
  · simp only [hgrow, if_false]
    rw [Op.run_pure_bind]
    rfl

theorem resizeRemoved_refused
    (hcall : HostAllocator.realloc (h.ledger.outerOf r.inner) outerSize h.early.machine = (none, m)) :
    (resizeRemoved r n outerSize c origin).run h = ⟨.ok none, (h.setMachine m).revived r, []⟩ := by
  rw [resizeRemoved_within hlimit, resizeWithin, Op.run_bind_of_run (run_keptChecksum ..),
    Op.run_get_bind, Op.run_bind_of_run (run_hostRealloc hcall)]
  rfl

theorem resizeRemoved_granted
    (hcall : HostAllocator.realloc (h.ledger.outerOf r.inner) outerSize h.early.machine =
      (some outer, m)) :
    (resizeRemoved r n outerSize c origin).run h =
      (recordResized (h.keptHash r.inner (Word.min r.size n)) r.inner r.size outer n c origin).run
        { h.setMachine m with ledger := h.ledger.deaccount r } := by
  rw [resizeRemoved_within hlimit, resizeWithin, Op.run_bind_of_run (run_keptChecksum ..),
    Op.run_get_bind, Op.run_bind_of_run (run_hostRealloc hcall)]
  rfl

end resizeRemoved

/-- The heap with a block taken out of its ledger. -/
def retire (h : LedgerHeap σ) (p : UInt64) (b : LiveBlock) : LedgerHeap σ :=
  { h with ledger := h.ledger.retire p b }

/-- The heap with a block out of the live table and marked as dead, but still counted. -/
def takenOut (h : LedgerHeap σ) (p : UInt64) (b : LiveBlock) : LedgerHeap σ :=
  h.setTracked ((h.tracked.removeLive p).setMarks p b BlockHeader.dead)

/-- What the resize of the live block at `p` can come to, once it was taken out of the live table:
the host is not asked, or leaves it in place, or has moved it, and it is recorded anew. -/
inductive Resizes (h : LedgerHeap σ) (p : UInt64) (b : LiveBlock) (n outerSize : UInt64)
    (c : Category) (origin : Origin) (out : Outcome (LedgerHeap σ) (Option UInt64)) : Prop
  | unasked (hstate : out.state = (h.takenOut p b).revived ⟨p, some b⟩)
    (hresult : out.result = .ok none)
  | refused {m : Machine σ}
    (hcall : HostAllocator.realloc (h.ledger.outerOf p) outerSize (h.takenOut p b).early.machine =
      (none, m))
    (hrun : out = ⟨.ok none, ((h.takenOut p b).setMachine m).revived ⟨p, some b⟩, []⟩)
  | granted {outer : UInt64} {m : Machine σ}
    (hlimit : b.size < n → h.ledger.limitCheck (n - b.size) c = .ok ())
    (hcall : HostAllocator.realloc (h.ledger.outerOf p) outerSize (h.takenOut p b).early.machine =
      (some outer, m))
    (hrun : out = (recordResized ((h.takenOut p b).keptHash p (Word.min b.size n)) p b.size outer n c
      origin).run ((h.retire p b).setMachine m))

theorem resizeRemoved_resizes (p : UInt64) (b : LiveBlock) (n outerSize : UInt64) (c : Category)
    (origin : Origin) (h : LedgerHeap σ) :
    h.Resizes p b n outerSize c origin
      ((resizeRemoved ⟨p, some b⟩ n outerSize c origin).run (h.takenOut p b)) := by
  by_cases hlimit : b.size < n → h.ledger.limitCheck (n - b.size) c = .ok ()
  · rcases hcall : HostAllocator.realloc (h.ledger.outerOf p) outerSize
        (h.takenOut p b).early.machine with ⟨_ | outer, m⟩
    · exact .refused hcall (resizeRemoved_refused (r := ⟨p, some b⟩) hlimit hcall)
    · exact .granted hlimit hcall (resizeRemoved_granted (r := ⟨p, some b⟩) hlimit hcall)
  · obtain ⟨hgrow, hlimit⟩ := Classical.not_imp.1 hlimit
    cases herror : h.ledger.limitCheck (n - b.size) c with
    | ok u => exact absurd herror hlimit
    | error e =>
      obtain ⟨hstate, hresult⟩ :=
        resizeRemoved_overLimit (h := h.takenOut p b) (r := ⟨p, some b⟩) hgrow herror
      exact .unasked hstate hresult

section realloc

theorem run_realloc_early (hp : h.early.blocks.contains p = true) :
    (realloc (some p) n c origin).run h = (onEarly (EarlyHeap.realloc (some p) n)).run h := by
  unfold realloc
  simp only [Op.run_get_bind, hp, if_true]

variable (henabled : h.ledger.enabled = true)
include henabled

theorem run_realloc_tracked (hp : h.early.blocks.contains p = false) :
    (realloc (some p) n c origin).run h = (reallocTracked p (Word.max n 1) c origin).run h := by
  unfold realloc
  simp only [Op.run_get_bind, hp, henabled, Bool.not_true, Bool.false_eq_true, if_false]

omit henabled in
theorem reallocTracked_tooLarge (hsize : Word.add? n h.ledger.overhead = none) :
    (reallocTracked p n c origin).run h = ⟨.ok none, h, []⟩ := by
  unfold reallocTracked
  simp only [Op.run_get_bind, hsize]
  rfl

variable (hsize : Word.add? n h.ledger.overhead = some outerSize)
include hsize

omit henabled in
/-- A block that is turned down leaves what its report does. -/
theorem run_reallocTracked_of_reported {found : Corruption}
    (hrun : (TrackedMemory.markDeadForRealloc p c).run h.tracked = t.reported found) :
    (reallocTracked p n c origin).run h =
      ⟨t.ledger.policy.answer found none, (h.setTracked t).noted found, [found.alarm]⟩ := by
  have hfound : (onTracked (TrackedMemory.markDeadForRealloc p c)).run h =
      ⟨t.ledger.policy.answer found (.error found), (h.setTracked t).noted found, [found.alarm]⟩ := by
    rw [run_onTracked, hrun]
    rfl
  unfold reallocTracked
  simp only [Op.run_get_bind, hsize]
  exact Op.run_bind_of_answer hfound rfl

theorem reallocTracked_notLive (hlive : h.ledger.live.get? p = none) :
    (reallocTracked p n c origin).run h =
      ⟨h.ledger.policy.answer ⟨.realloc, p, .notLive⟩ none, h.noted ⟨.realloc, p, .notLive⟩,
        [Corruption.alarm ⟨.realloc, p, .notLive⟩]⟩ :=
  run_reallocTracked_of_reported hsize
    (TrackedMemory.markDeadForRealloc_notLive (t := h.tracked) henabled hlive)

theorem reallocTracked_damaged (hlive : h.ledger.live.get? p = some b)
    (hkind : Ledger.inspectForResize h.memory p b c = .error kind) :
    (reallocTracked p n c origin).run h =
      ⟨h.ledger.policy.answer ⟨.realloc, p, kind⟩ none, (h.retire p b).noted ⟨.realloc, p, kind⟩,
        [Corruption.alarm ⟨.realloc, p, kind⟩]⟩ :=
  run_reallocTracked_of_reported hsize
    (TrackedMemory.markDeadForRealloc_damaged (t := h.tracked) henabled hlive hkind)

theorem reallocTracked_intact (hlive : h.ledger.live.get? p = some b)
    (hkind : Ledger.inspectForResize h.memory p b c = .ok ()) :
    (reallocTracked p n c origin).run h =
      (resizeRemoved ⟨p, some b⟩ n outerSize c origin).run (h.takenOut p b) := by
  have hout : (onTracked (TrackedMemory.markDeadForRealloc p c)).run h =
      ⟨.ok (.ok ⟨p, some b⟩), h.takenOut p b, []⟩ := by
    rw [run_onTracked,
      TrackedMemory.markDeadForRealloc_intact (t := h.tracked) henabled hlive hkind]
    rfl
  unfold reallocTracked
  simp only [Op.run_get_bind, hsize]
  rw [Op.run_bind_of_run hout]

end realloc

/-! ## Release -/

section free

theorem run_free_early (hp : h.early.blocks.contains p = true) :
    (free (some p)).run h = (onEarly (EarlyHeap.free (some p))).run h := by
  unfold free
  simp only [Op.run_get_bind, hp, if_true]

variable (henabled : h.ledger.enabled = true) (hp : h.early.blocks.contains p = false)
include henabled hp

omit henabled in
/-- A pointer that is turned down leaves what its report does. -/
theorem run_free_of_reported {found : Corruption}
    (hrun : (TrackedMemory.recordFree p).run h.tracked = t.reported found) :
    (free (some p)).run h = ⟨t.ledger.policy.answer found (), (h.setTracked t).noted found,
      h.caught "free" p ++ [found.alarm]⟩ := by
  have hfound : (onTracked (TrackedMemory.recordFree p)).run h =
      ⟨t.ledger.policy.answer found (.error found), (h.setTracked t).noted found, [found.alarm]⟩ := by
    rw [run_onTracked, hrun]
    rfl
  obtain ⟨hcatch, hcatch'⟩ := run_catchPointer "free" p h
  unfold free
  simp only [Op.run_get_bind, hp, Bool.false_eq_true, if_false]
  rw [Op.run_bind_of_ok hcatch', hcatch, Op.run_bind_of_answer hfound (x := ()) rfl]
  rfl

theorem free_notLive (hlive : h.ledger.live.get? p = none) :
    (free (some p)).run h =
      ⟨h.ledger.policy.answer ⟨.free, p, .notLive⟩ (), h.noted ⟨.free, p, .notLive⟩,
        h.caught "free" p ++ [Corruption.alarm ⟨.free, p, .notLive⟩]⟩ :=
  run_free_of_reported hp (TrackedMemory.recordFree_notLive (t := h.tracked) henabled hlive)

theorem free_damaged (hlive : h.ledger.live.get? p = some b)
    (hkind : Ledger.inspectBlock h.memory p b = .error kind) :
    (free (some p)).run h =
      ⟨h.ledger.policy.answer ⟨.free, p, kind⟩ (), (h.retire p b).noted ⟨.free, p, kind⟩,
        h.caught "free" p ++ [Corruption.alarm ⟨.free, p, kind⟩]⟩ :=
  run_free_of_reported hp (TrackedMemory.recordFree_damaged (t := h.tracked) henabled hlive hkind)

/-- The heap without a block that went back to the host, with its marks turned dead. -/
def released (h : LedgerHeap σ) (p : UInt64) (b : LiveBlock) : LedgerHeap σ :=
  let h := h.setTracked ((h.tracked.retire p b).setMarks p b BlockHeader.dead)
  h.setMachine (HostAllocator.free (BlockHeader.outerOf p) h.early.machine)

theorem free_intact (hlive : h.ledger.live.get? p = some b)
    (hkind : Ledger.inspectBlock h.memory p b = .ok ()) :
    ((free (some p)).run h).state = h.released p b ∧ ((free (some p)).run h).result = .ok () := by
  obtain ⟨hstate, hresult⟩ := TrackedMemory.recordFree_intact (t := h.tracked) henabled hlive hkind
  have hfreed : ((onTracked (TrackedMemory.recordFree p)).run h).result = _ := hresult
  have hretired : ((onTracked (TrackedMemory.recordFree p)).run h).state = _ :=
    congrArg h.setTracked hstate
  obtain ⟨hcatch, hcatch'⟩ := run_catchPointer "free" p h
  unfold free
  simp only [Op.run_get_bind, hp, Bool.false_eq_true, if_false]
  rw [Op.state_bind_of_ok hcatch', Op.result_bind_of_ok hcatch', hcatch, Op.state_bind_of_ok hfreed,
    Op.result_bind_of_ok hfreed, hretired]
  exact ⟨rfl, rfl⟩

end free

/-! ## Without tracking -/

section untracked

variable (henabled : h.ledger.enabled = false)
include henabled

omit [HostAllocator σ] in
theorem recordGranted_untracked :
    ((recordGranted outer n c origin).run h).state = h.setMemory (h.freshFill outer n) ∧
      ((recordGranted outer n c origin).run h).result = .ok (some outer) := by
  have hrun := TrackedMemory.recordMalloc_untracked (t := h.tracked) henabled outer n c origin
  exact recordGranted_of_ok (congrArg (·.state) hrun) (congrArg (·.result) hrun)

omit [HostAllocator σ] in
/-- Blocks without headers are as long as they are asked for. -/
theorem eq_of_overhead (hsize : Word.add? n h.ledger.overhead = some outerSize) : outerSize = n := by
  have hlength := (Word.toNat_of_add? hsize).1
  simp only [Ledger.overhead, henabled, Bool.false_eq_true, if_false] at hlength
  exact UInt64.toNat_inj.1 hlength

variable (hp : h.early.blocks.contains p = false)
include hp

theorem run_realloc_untracked :
    (realloc (some p) n c origin).run h = (reallocUntracked p (Word.max n 1)).run h := by
  unfold realloc
  simp only [Op.run_get_bind, hp, henabled, Bool.not_false, Bool.false_eq_true, if_true, if_false]

omit henabled hp in
theorem reallocUntracked_refused (hcall : HostAllocator.realloc p n h.early.machine = (none, m)) :
    (reallocUntracked p n).run h = ⟨.ok none, h.setMachine m, []⟩ := by
  unfold reallocUntracked
  rw [Op.run_bind_of_run (run_hostRealloc hcall)]
  rfl

omit henabled hp in
theorem reallocUntracked_granted (hcall : HostAllocator.realloc p n h.early.machine = (some q, m)) :
    ((reallocUntracked p n).run h).state = h.setMachine m ∧
      ((reallocUntracked p n).run h).result = .ok (some q) := by
  obtain ⟨hcatch, hcatch'⟩ := run_catchPointer "realloc" q (h.setMachine m)
  unfold reallocUntracked
  rw [Op.run_bind_of_run (run_hostRealloc hcall)]
  dsimp only
  rw [Op.state_bind_of_ok hcatch', Op.result_bind_of_ok hcatch', hcatch]
  exact ⟨rfl, rfl⟩

theorem free_untracked :
    ((free (some p)).run h).state = h.setMachine (HostAllocator.free p h.early.machine) ∧
      ((free (some p)).run h).result = .ok () := by
  have hfreed : (onTracked (TrackedMemory.recordFree p)).run h = ⟨.ok (.ok p), h, []⟩ := by
    rw [run_onTracked, TrackedMemory.recordFree_untracked (t := h.tracked) henabled]
    rfl
  obtain ⟨hcatch, hcatch'⟩ := run_catchPointer "free" p h
  unfold free
  simp only [Op.run_get_bind, hp, Bool.false_eq_true, if_false]
  rw [Op.state_bind_of_ok hcatch', Op.result_bind_of_ok hcatch', hcatch, Op.run_bind_of_run hfreed]
  exact ⟨rfl, rfl⟩

end untracked

end LedgerHeap

end HostServices
