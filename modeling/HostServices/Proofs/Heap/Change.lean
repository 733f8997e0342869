import HostServices.Proofs.Heap.Outcomes
import Mathlib.Data.Set.Defs

/-!
# What a call can do to a heap

`LedgerHeap.Change` lists the ways in which a call changes a heap with a ledger, each with what
stood before it: a block that the host is to free or to resize was live, or in the early table. The
bytes of memory are left open, since neither the books nor the host's blocks depend on them.
Each operation makes one of these changes (`malloc_change`, `realloc_change`, `free_change`), so
what all of them keep is kept by every call.
-/

namespace HostServices

/-! ## Findings that condemn a block -/

/-- A block with such a finding is out of use for good. -/
def Corruption.Kind.condemns : Corruption.Kind → Bool
  | headerCanary .. | footerCanary .. | headerMismatch .. | categoryMismatch .. => true
  | notLive | reallocCopy _ => false

namespace Ledger

variable {mem : Memory} {inner : UInt64} {b : LiveBlock} {c : Category} {kind : Corruption.Kind}

theorem condemns_of_inspectBlock (h : inspectBlock mem inner b = .error kind) :
    kind.condemns = true := by
  simp only [inspectBlock] at h
  split at h
  · cases h; rfl
  split at h
  · cases h; rfl
  split at h
  · cases h; rfl
  split at h
  · cases h; rfl
  split at h
  · cases h; rfl
  · cases h

theorem condemns_of_inspectForResize (h : inspectForResize mem inner b c = .error kind) :
    kind.condemns = true := by
  unfold inspectForResize at h
  cases hblock : inspectBlock mem inner b with
  | error kind' =>
    rw [hblock] at h
    cases h
    exact condemns_of_inspectBlock hblock
  | ok u =>
    rw [hblock] at h
    by_cases hc : b.category = c
    · simp [bind, Except.bind, hc, pure, Except.pure] at h
    · simp [bind, Except.bind, hc] at h
      cases h
      rfl

/-- A resize passes its checks for the block's own category only. -/
theorem category_of_inspectForResize (h : inspectForResize mem inner b c = .ok ()) :
    b.category = c := by
  unfold inspectForResize at h
  by_cases hc : b.category = c
  · exact hc
  · cases hblock : inspectBlock mem inner b with
    | error kind' =>
      rw [hblock] at h
      cases h
    | ok u =>
      rw [hblock] at h
      simp [bind, Except.bind, hc] at h

theorem inspectBlock_of_inspectForResize (h : inspectForResize mem inner b c = .ok ()) :
    inspectBlock mem inner b = .ok () := by
  unfold inspectForResize at h
  cases hblock : inspectBlock mem inner b with
  | error kind =>
    rw [hblock] at h
    cases h
  | ok u => rfl

theorem inspectForResize_of_ok (h : inspectBlock mem inner b = .ok ()) :
    inspectForResize mem inner b b.category = .ok () := by
  unfold inspectForResize
  rw [h]
  simp [bind, Except.bind, pure, Except.pure]

end Ledger

/-! ## The changes -/

section changes

variable {σ : Type} [HostAllocator σ]

/-- The heap over another state of the host, and other memory. -/
def EarlyHeap.overHost (h : EarlyHeap σ) (s : σ) (mem : Memory) : EarlyHeap σ :=
  { h with machine := ⟨s, mem⟩ }

/-- What a call can do to blocks without a record. Fresh ones are not among them. -/
inductive EarlyHeap.Change (h : EarlyHeap σ) : EarlyHeap σ → Prop
  | idle (mem : Memory) : h.Change (h.overHost h.machine.host mem)
  | refused {n : UInt64} {m m' : Machine σ} (mem : Memory) (hm : m.host = h.machine.host) (hn : 0 < n)
    (hcall : HostAllocator.malloc n m = (none, m')) : h.Change (h.overHost m'.host mem)
  | unresized {p n : UInt64} {m m' : Machine σ} (mem : Memory) (hm : m.host = h.machine.host)
    (hp : h.blocks.contains p = true) (hn : 0 < n)
    (hcall : HostAllocator.realloc p n m = (none, m')) : h.Change (h.overHost m'.host mem)
  | resized {p q n : UInt64} {m m' : Machine σ} (mem : Memory) (hm : m.host = h.machine.host)
    (hp : h.blocks.contains p = true) (hn : 0 < n)
    (hcall : HostAllocator.realloc p n m = (some q, m')) :
    h.Change (remember q (forget p (h.overHost m'.host mem)))
  | released {p : UInt64} {m : Machine σ} (mem : Memory) (hm : m.host = h.machine.host)
    (hp : h.blocks.contains p = true) :
    h.Change (forget p (h.overHost (HostAllocator.free p m).host mem))

/-- What a call can do to a heap with a ledger, when it makes its requests for those in `K`. A fresh
block is charged while it is recorded, so the ledger after that is what `recordMalloc` leaves. -/
inductive LedgerHeap.Change (K : Set SiteKey) (h : LedgerHeap σ) : LedgerHeap σ → Prop
  | early {e : EarlyHeap σ} (he : h.early.Change e) : h.Change K ⟨e, h.ledger⟩
  | rejected {c : Corruption} (mem : Memory) (hc : c.kind = .notLive)
    (hlive : h.ledger.live.get? c.block = none) :
    h.Change K ⟨h.early.overHost h.early.machine.host mem, h.ledger.noted c⟩
  | condemned {c : Corruption} {b : LiveBlock} (mem : Memory) (hc : c.kind.condemns = true)
    (hlive : h.ledger.live.get? c.block = some b) :
    h.Change K ⟨h.early.overHost h.early.machine.host mem, (h.ledger.retire c.block b).noted c⟩
  | allocated {n outerSize outer : UInt64} {c : Category} {origin : Origin} {m m' : Machine σ}
    (mem : Memory) (hK : Ledger.requester origin c ∈ K) (hm : m.host = h.early.machine.host)
    (hn : 0 < n) (hsize : Word.add? n h.ledger.overhead = some outerSize)
    (hlimit : h.ledger.limitCheck n c = .ok ())
    (hcall : HostAllocator.malloc outerSize m = (some outer, m')) :
    h.Change K ⟨h.early.overHost m'.host mem,
      ((TrackedMemory.recordMalloc outer n c origin).run ⟨h.ledger, m'.memory⟩).state.ledger⟩
  | unresized {p outerSize : UInt64} {b : LiveBlock} {m m' : Machine σ} (mem : Memory)
    (hm : m.host = h.early.machine.host) (hlive : h.ledger.live.get? p = some b) (hn : 0 < outerSize)
    (hcall : HostAllocator.realloc (BlockHeader.outerOf p) outerSize m = (none, m')) :
    h.Change K ⟨h.early.overHost m'.host mem, h.ledger⟩
  | resized {p n outerSize outer : UInt64} {b : LiveBlock} {origin : Origin} {m m' : Machine σ}
    (mem : Memory) (found : List Corruption) (hK : Ledger.requester origin b.category ∈ K)
    (hm : m.host = h.early.machine.host) (hlive : h.ledger.live.get? p = some b) (hn : 0 < n)
    (hsize : Word.add? n h.ledger.overhead = some outerSize)
    (hlimit : b.size < n → h.ledger.limitCheck (n - b.size) b.category = .ok ())
    (hcall : HostAllocator.realloc (BlockHeader.outerOf p) outerSize m = (some outer, m'))
    (hfound : ∀ c ∈ found, c.kind.condemns = false) :
    h.Change K ⟨h.early.overHost m'.host mem,
      (((TrackedMemory.recordMalloc outer n b.category origin).run
        ⟨h.ledger.retire p b, m'.memory⟩).state.ledger).addReports found⟩
  | released {p : UInt64} {b : LiveBlock} {m : Machine σ} (mem : Memory)
    (hm : m.host = h.early.machine.host) (hlive : h.ledger.live.get? p = some b) :
    h.Change K ⟨h.early.overHost (HostAllocator.free (BlockHeader.outerOf p) m).host mem,
      h.ledger.retire p b⟩

end changes

/-! ## Every operation makes one -/

theorem Word.max_one_pos (n : UInt64) : 0 < Word.max n 1 := by
  rw [UInt64.lt_iff_toNat_lt, Word.toNat_max]
  exact Nat.lt_of_lt_of_le Nat.one_pos (Nat.le_max_right ..)

theorem Word.pos_of_add? {a b c : UInt64} (h : Word.add? a b = some c) (ha : 0 < a) : 0 < c := by
  have := (Word.toNat_of_add? h).1
  rw [UInt64.lt_iff_toNat_lt] at ha ⊢
  exact this ▸ Nat.lt_of_lt_of_le ha (Nat.le_add_right ..)

namespace EarlyHeap

variable {σ : Type} [HostAllocator σ] {h : EarlyHeap σ} {p : UInt64}

theorem realloc_change (hp : h.blocks.contains p = true) (n : UInt64) :
    h.Change ((realloc (some p) n).run h).state := by
  rcases hcall : HostAllocator.realloc p (Word.max n 1) h.machine with ⟨_ | q, m⟩
  · rw [realloc_refused hcall]
    exact .unresized m.memory rfl hp (Word.max_one_pos n) hcall
  · rw [realloc_granted hcall]
    exact .resized m.memory rfl hp (Word.max_one_pos n) hcall

theorem free_change (hp : h.blocks.contains p = true) : h.Change ((free (some p)).run h).state :=
  .released (HostAllocator.free p h.machine).memory rfl hp

end EarlyHeap

namespace LedgerHeap

variable {σ : Type} {h : LedgerHeap σ}

section recordResized

variable (before : Option UInt64) (old oldSize outer n : UInt64) (c : Category) (origin : Origin)
  (h : LedgerHeap σ)

theorem verifyCopy_cases (new kept : UInt64) :
    (((verifyCopy before old new kept).run h).state = h ∧
        ((verifyCopy before old new kept).run h).result = .ok ()) ∨
      (((verifyCopy before old new kept).run h).state = h.noted ⟨.realloc, old, .reallocCopy kept⟩ ∧
        ((verifyCopy before old new kept).run h).result =
          h.ledger.policy.answer ⟨.realloc, old, .reallocCopy kept⟩ ()) := by
  cases before with
  | none => exact .inl (verifyCopy_kept old nofun)
  | some expected =>
    by_cases hkept : checksum (h.memory.read new kept.toNat) = expected
    · exact .inl (verifyCopy_kept old fun _ he => hkept.trans (Option.some.inj he))
    · exact .inr (verifyCopy_lost hkept)

/-- Checking and filling a resized block changes memory, and may report that its bytes were lost. -/
theorem state_finishResized (new : UInt64) :
    ∃ mem found, (∀ c ∈ found, c.kind.condemns = false ∧ c.block = old) ∧
      ((do
        verifyCopy before old new (Word.min oldSize n)
        fillGrown new oldSize n
        catchPointer "realloc" new
        return some new : Op (LedgerHeap σ) (Option UInt64)).run h).state =
        { h.setMemory mem with ledger := h.ledger.addReports found } := by
  have filled (h : LedgerHeap σ) :
      ((do
        fillGrown new oldSize n
        catchPointer "realloc" new
        return some new : Op (LedgerHeap σ) (Option UInt64)).run h).state =
        h.setMemory (h.grownFill new oldSize n) := by
    obtain ⟨hcatch, hcatch'⟩ := run_catchPointer "realloc" new
      (h.setMemory (h.grownFill new oldSize n))
    rw [Op.run_bind_of_run (run_fillGrown new oldSize n h), Op.state_bind_of_ok hcatch', hcatch]
    rfl
  have hnone : h.ledger.addReports [] = h.ledger := by
    rw [Ledger.addReports, List.append_nil]
  rcases verifyCopy_cases before old h new (Word.min oldSize n) with ⟨hstate, hresult⟩ |
    ⟨hstate, hresult⟩
  · refine ⟨h.grownFill new oldSize n, [], List.forall_mem_nil _, ?_⟩
    rw [Op.state_bind_of_ok hresult, hstate, filled, hnone]
    rfl
  · have hfound : ∀ c ∈ [(⟨.realloc, old, .reallocCopy (Word.min oldSize n)⟩ : Corruption)],
        c.kind.condemns = false ∧ c.block = old := List.forall_mem_singleton.2 ⟨rfl, rfl⟩
    cases hpolicy : h.ledger.policy with
    | keep =>
      rw [hpolicy] at hresult
      refine ⟨h.grownFill new oldSize n, _, hfound, ?_⟩
      rw [Op.state_bind_of_ok hresult, hstate, filled]
      rfl
    | abort =>
      rw [hpolicy] at hresult
      refine ⟨h.memory, _, hfound, ?_⟩
      rw [Op.state_bind_of_error hresult, hstate]
      rfl

theorem state_recordResized :
    ∃ mem found, (∀ c ∈ found, c.kind.condemns = false ∧ c.block = old) ∧
      ((recordResized before old oldSize outer n c origin).run h).state =
        { h.setMemory mem with
          ledger := (((TrackedMemory.recordMalloc outer n c origin).run h.tracked).state.ledger).addReports
            found } := by
  cases hrecord : ((onTracked (TrackedMemory.recordMalloc outer n c origin)).run h).result with
  | error e =>
    refine ⟨((TrackedMemory.recordMalloc outer n c origin).run h.tracked).state.memory, [],
      List.forall_mem_nil _, ?_⟩
    unfold recordResized
    rw [Op.state_bind_of_error hrecord, run_onTracked, Ledger.addReports, List.append_nil]
    rfl
  | ok new =>
    obtain ⟨mem, found, hfound, hstate⟩ := state_finishResized before old oldSize n
      (h.setTracked ((TrackedMemory.recordMalloc outer n c origin).run h.tracked).state) new
    refine ⟨mem, found, hfound, ?_⟩
    unfold recordResized
    rw [Op.state_bind_of_ok hrecord, run_onTracked]
    exact hstate

end recordResized

theorem revived_takenOut {p : UInt64} {b : LiveBlock} (hlive : h.ledger.live.get? p = some b)
    (m : Machine σ) :
    ((h.takenOut p b).setMachine m).revived ⟨p, some b⟩ =
      ⟨h.early.overHost m.host (BlockHeader.setMarks m.memory p b.size BlockHeader.live),
        h.ledger⟩ := by
  have hledger := TrackedMemory.ledger_revive (t := h.tracked) hlive m.memory
  exact congrArg (fun l => (⟨h.early.overHost m.host _, l⟩ : LedgerHeap σ)) hledger

theorem outerOf_takenOut (henabled : h.ledger.enabled = true) {p : UInt64} {b : LiveBlock} :
    (h.takenOut p b).ledger.outerOf p = BlockHeader.outerOf p := if_pos henabled

variable [HostAllocator σ] {K : Set SiteKey}

theorem change_setMemory (mem : Memory) : h.Change K (h.setMemory mem) :=
  .early (.idle mem)

theorem change_refl : h.Change K h :=
  .early (.idle h.memory)

theorem malloc_change (n : UInt64) {c : Category} {origin : Origin}
    (hK : Ledger.requester origin c ∈ K) :
    h.Change K ((malloc n c origin).run h).state := by
  have hn := Word.max_one_pos n
  cases malloc_allocates n c origin h with
  | unasked hstate =>
    rw [hstate]
    exact change_refl
  | @refused outerSize m hsize hcall hrun =>
    rw [hrun]
    exact .early (.refused m.memory rfl (Word.pos_of_add? hsize hn) hcall)
  | @granted outerSize outer m hlimit hsize hcall hrun =>
    rw [hrun]
    cases hrecord : ((TrackedMemory.recordMalloc outer (Word.max n 1) c origin).run
        (h.setMachine m).tracked).result with
    | ok inner =>
      rw [(recordGranted_of_ok rfl hrecord).1]
      exact .allocated _ hK rfl hn hsize hlimit hcall
    | error e =>
      rw [(recordGranted_of_error rfl hrecord).1]
      exact .allocated _ hK rfl hn hsize hlimit hcall

/-- A block that was taken out is put back, or goes to the host and is recorded anew. -/
theorem resizeRemoved_change (henabled : h.ledger.enabled = true) {p n outerSize : UInt64}
    {b : LiveBlock} (hn : 0 < n) (hsize : Word.add? n h.ledger.overhead = some outerSize)
    (hlive : h.ledger.live.get? p = some b) {origin : Origin}
    (hK : Ledger.requester origin b.category ∈ K) :
    h.Change K
      ((resizeRemoved ⟨p, some b⟩ n outerSize b.category origin).run (h.takenOut p b)).state := by
  have houterOf : h.ledger.outerOf p = BlockHeader.outerOf p := if_pos henabled
  cases resizeRemoved_resizes p b n outerSize b.category origin h with
  | unasked hstate =>
    rw [hstate.trans (revived_takenOut hlive (h.takenOut p b).early.machine)]
    exact change_setMemory _
  | refused hcall hrun =>
    rw [houterOf] at hcall
    rw [hrun, revived_takenOut hlive]
    exact .unresized (m := (h.takenOut p b).early.machine) _ rfl hlive (Word.pos_of_add? hsize hn)
      hcall
  | @granted outer m hlimit hcall hrun =>
    obtain ⟨mem, found, hfound, hstate⟩ := state_recordResized
      ((h.takenOut p b).keptHash p (Word.min b.size n)) p b.size outer n b.category origin
      ((h.retire p b).setMachine m)
    rw [houterOf] at hcall
    rw [hrun, hstate]
    exact .resized (m := (h.takenOut p b).early.machine) mem found hK rfl hlive hn hsize hlimit
      hcall fun c hc => (hfound c hc).1

theorem reallocTracked_change (henabled : h.ledger.enabled = true) {n : UInt64} (hn : 0 < n)
    (p : UInt64) {c : Category} {origin : Origin} (hK : Ledger.requester origin c ∈ K) :
    h.Change K ((reallocTracked p n c origin).run h).state := by
  cases hsize : Word.add? n h.ledger.overhead with
  | none =>
    rw [reallocTracked_tooLarge hsize]
    exact change_refl
  | some outerSize =>
    cases hlive : h.ledger.live.get? p with
    | none =>
      rw [reallocTracked_notLive henabled hsize hlive]
      exact .rejected h.memory rfl hlive
    | some b =>
      cases hkind : Ledger.inspectForResize h.memory p b c with
      | error kind =>
        rw [reallocTracked_damaged henabled hsize hlive hkind]
        exact .condemned (c := ⟨.realloc, p, kind⟩) h.memory
          (Ledger.condemns_of_inspectForResize hkind) hlive
      | ok u =>
        rw [reallocTracked_intact henabled hsize hlive hkind]
        obtain rfl := Ledger.category_of_inspectForResize hkind
        exact resizeRemoved_change henabled hn hsize hlive hK

theorem realloc_change (henabled : h.ledger.enabled = true) (p : Option UInt64) (n : UInt64)
    {c : Category} {origin : Origin} (hK : Ledger.requester origin c ∈ K) :
    h.Change K ((realloc p n c origin).run h).state := by
  cases p with
  | none => exact malloc_change n hK
  | some p =>
    cases hp : h.early.blocks.contains p with
    | true =>
      rw [run_realloc_early hp]
      exact .early (EarlyHeap.realloc_change hp n)
    | false =>
      rw [run_realloc_tracked henabled hp]
      exact reallocTracked_change henabled (Word.max_one_pos n) p hK

theorem free_change (henabled : h.ledger.enabled = true) (p : Option UInt64) :
    h.Change K ((free p).run h).state := by
  cases p with
  | none => exact change_refl
  | some p =>
    cases hp : h.early.blocks.contains p with
    | true =>
      rw [run_free_early hp]
      exact .early (EarlyHeap.free_change hp)
    | false =>
      cases hlive : h.ledger.live.get? p with
      | none =>
        rw [free_notLive henabled hp hlive]
        exact .rejected h.memory rfl hlive
      | some b =>
        cases hkind : Ledger.inspectBlock h.memory p b with
        | error kind =>
          rw [free_damaged henabled hp hlive hkind]
          exact .condemned (c := ⟨.free, p, kind⟩) h.memory
            (Ledger.condemns_of_inspectBlock hkind) hlive
        | ok u =>
          rw [(free_intact henabled hp hlive hkind).1]
          exact .released _ rfl hlive

end LedgerHeap

end HostServices
