import HostServices.Proofs.Heap.Change

/-!
# Runs of a heap

A run is a list of what happens to a heap: calls of its operations with any arguments, a ledger
being installed, memory being overwritten. Only before there is a ledger does a heap rely on its
callers to give back blocks of its own (`HeapCall.Proper`). Each call makes one `Heap.Change`.
-/

namespace HostServices

variable {σ : Type}

/-- If it has a ledger, the heap tracks blocks. -/
def Heap.Enabled (h : Heap σ) : Prop :=
  ∀ l, h.ledger? = some l → l.enabled = true

theorem Heap.enabled_early (e : EarlyHeap σ) : Enabled (.early e) :=
  fun _ hl => absurd hl (Option.some_ne_none _).symm

variable [HostAllocator σ] {K : Set SiteKey}

/-- What a call can do to a heap, when it makes its requests for those in `K`. -/
inductive Heap.Change (K : Set SiteKey) : Heap σ → Heap σ → Prop
  | early {e e' : EarlyHeap σ} (he : e.Change e') : Change K (.early e) (.early e')
  | granted {e : EarlyHeap σ} {p n : UInt64} {m m' : Machine σ} (mem : Memory)
    (hm : m.host = e.machine.host) (hn : 0 < n) (hcall : HostAllocator.malloc n m = (some p, m')) :
    Change K (.early e) (.early (EarlyHeap.remember p (e.overHost m'.host mem)))
  | installed {e : EarlyHeap σ} {config : MemoryConfig} {policy : CorruptionPolicy} (mem : Memory)
    (henabled : config.tracking.enabled = true) :
    Change K (.early e) (.ready ⟨e.overHost e.machine.host mem, { config, policy }⟩)
  | ready {h h' : LedgerHeap σ} (hh : h.Change K h') : Change K (.ready h) (.ready h')

/-- What happens to a heap: a call, the installation of a ledger, or other bytes in memory. -/
inductive HeapCall
  | malloc (n : UInt64) (c : Category) (origin : Origin)
  | duplicate (text : List UInt8) (c : Category) (origin : Origin)
  | realloc (p : Option UInt64) (n : UInt64) (c : Category) (origin : Origin)
  | free (p : Option UInt64)
  | install (config : MemoryConfig) (policy : CorruptionPolicy)
  | overwrite (mem : Memory)

namespace HeapCall

/-- What a call leaves. A call that stops part way leaves what it has done. -/
def perform : HeapCall → Heap σ → Heap σ
  | malloc n c origin, h => ((Heap.malloc n c origin).run h).state
  | duplicate text c origin, h => ((Heap.duplicate text c origin).run h).state
  | realloc p n c origin, h => ((Heap.realloc p n c origin).run h).state
  | free p, h => ((Heap.free p).run h).state
  | install config policy, h => ((Heap.install { config, policy }).run h).state
  | overwrite mem, h => h.setMemory mem

/-- What a heap relies on: without a ledger, only blocks of its own are given to it, and the ledger
that it gets tracks blocks. With a ledger, any pointer may be given. -/
def Proper : HeapCall → Heap σ → Prop
  | realloc (some p) _ _ _, .early h => h.blocks.contains p = true
  | free (some p), .early h => h.blocks.contains p = true
  | install config _, _ => config.tracking.enabled = true
  | _, _ => True

/-- Who a call makes a request for. -/
def requester? : HeapCall → Option SiteKey
  | malloc _ c origin | duplicate _ c origin | realloc _ _ c origin =>
    some (Ledger.requester origin c)
  | free _ | install .. | overwrite _ => none

/-- The requester of a call, if it has one. -/
def requesters (call : HeapCall) : Set SiteKey :=
  {k | call.requester? = some k}

/-- What calls one after another leave. -/
def run (calls : List HeapCall) (h : Heap σ) : Heap σ :=
  calls.foldl (fun h call => call.perform h) h

/-- Each call is proper when it is made. -/
def ProperRun : List HeapCall → Heap σ → Prop
  | [], _ => True
  | call :: calls, h => call.Proper h ∧ ProperRun calls (call.perform h)

theorem run_append (first second : List HeapCall) (h : Heap σ) :
    run (first ++ second) h = run second (run first h) :=
  List.foldl_append ..

theorem properRun_append {first second : List HeapCall} {h : Heap σ} :
    ProperRun (first ++ second) h ↔ ProperRun first h ∧ ProperRun second (run first h) := by
  induction first generalizing h with
  | nil => exact ⟨fun h => ⟨trivial, h⟩, And.right⟩
  | cons call first ih =>
    show call.Proper h ∧ ProperRun (first ++ second) (call.perform h) ↔
      (call.Proper h ∧ ProperRun first (call.perform h)) ∧ _
    rw [ih, and_assoc]
    rfl

end HeapCall

/-! ## Every call makes a change -/

/-- The heap with other memory. -/
def EarlyHeap.setMemory (h : EarlyHeap σ) (mem : Memory) : EarlyHeap σ :=
  h.overHost h.machine.host mem

theorem EarlyHeap.Change.setMemory {e e' : EarlyHeap σ} (h : e.Change e') (mem : Memory) :
    e.Change (e'.setMemory mem) := by
  cases h with
  | idle => exact .idle mem
  | @refused n m m' _ hm hn hcall =>
    show e.Change (e.overHost m'.host mem)
    exact .refused mem hm hn hcall
  | @unresized p n m m' _ hm hp hn hcall =>
    show e.Change (e.overHost m'.host mem)
    exact .unresized mem hm hp hn hcall
  | @resized p q n m m' _ hm hp hn hcall =>
    show e.Change (remember q (forget p (e.overHost m'.host mem)))
    exact .resized mem hm hp hn hcall
  | released _ hm hp => exact .released mem hm hp

theorem LedgerHeap.Change.setMemory {h h' : LedgerHeap σ} (hh : h.Change K h') (mem : Memory) :
    h.Change K (h'.setMemory mem) := by
  cases hh with
  | early he => exact .early (he.setMemory mem)
  | rejected _ hc hlive => exact .rejected mem hc hlive
  | condemned _ hc hlive => exact .condemned mem hc hlive
  | allocated _ hK hm hn hsize hlimit hcall => exact .allocated mem hK hm hn hsize hlimit hcall
  | @unresized p n b m m' _ hm hlive hn hcall =>
    show h.Change K ⟨h.early.overHost m'.host mem, h.ledger⟩
    exact .unresized mem hm hlive hn hcall
  | resized _ found hK hm hlive hn hsize hlimit hcall hfound =>
    exact .resized mem found hK hm hlive hn hsize hlimit hcall hfound
  | released _ hm hlive => exact .released mem hm hlive

namespace Heap

variable {h : Heap σ}

theorem change_refl : (h : Heap σ) → h.Change K h
  | .early e => .early (.idle e.machine.memory)
  | .ready _ => .ready LedgerHeap.change_refl

theorem Change.setMemory {h h' : Heap σ} (hh : h.Change K h') (mem : Memory) :
    h.Change K (h'.setMemory mem) := by
  cases hh with
  | early he => exact .early (he.setMemory mem)
  | @granted e p n m m' _ hm hn hcall =>
    show Change K (.early e) (.early (EarlyHeap.remember p (e.overHost m'.host mem)))
    exact .granted mem hm hn hcall
  | installed _ henabled => exact .installed mem henabled
  | ready hh => exact .ready (hh.setMemory mem)

theorem malloc_change (n : UInt64) {c : Category} {origin : Origin}
    (hK : Ledger.requester origin c ∈ K) (h : Heap σ) :
    h.Change K ((malloc n c origin).run h).state := by
  cases h with
  | early e =>
    show Change K (.early e) (.early ((EarlyHeap.malloc n).run e).state)
    rcases hcall : HostAllocator.malloc (Word.max n 1) e.machine with ⟨_ | p, m⟩
    · rw [EarlyHeap.malloc_refused hcall]
      exact .early (.refused m.memory rfl (Word.max_one_pos n) hcall)
    · rw [(EarlyHeap.malloc_granted hcall).1]
      exact .granted m.memory rfl (Word.max_one_pos n) hcall
  | ready h => exact .ready (LedgerHeap.malloc_change n hK)

theorem duplicate_change (text : List UInt8) {c : Category} {origin : Origin}
    (hK : Ledger.requester origin c ∈ K) (h : Heap σ) :
    h.Change K ((duplicate text c origin).run h).state := by
  have hmalloc := malloc_change (UInt64.ofNat (text ++ [0]).length) hK h
  unfold duplicate
  dsimp only
  cases hresult : ((malloc (UInt64.ofNat (text ++ [0]).length) c origin).run h).result with
  | error e =>
    rw [Op.state_bind_of_error hresult]
    exact hmalloc
  | ok answer =>
    rw [Op.state_bind_of_ok hresult]
    cases answer with
    | none => exact hmalloc
    | some p => exact hmalloc.setMemory _

end Heap

theorem HeapCall.perform_change {h : Heap σ} (henabled : h.Enabled) (call : HeapCall)
    (hproper : call.Proper h) : h.Change call.requesters (call.perform h) := by
  cases call with
  | malloc n c origin => exact Heap.malloc_change (K := (malloc n c origin).requesters) n rfl h
  | duplicate text c origin =>
    exact Heap.duplicate_change (K := (duplicate text c origin).requesters) text rfl h
  | realloc p n c origin =>
    cases h with
    | early e =>
      cases p with
      | none => exact Heap.malloc_change (K := (realloc none n c origin).requesters) n rfl (.early e)
      | some p => exact .early (EarlyHeap.realloc_change hproper n)
    | ready h => exact .ready (LedgerHeap.realloc_change (henabled _ rfl) p n rfl)
  | free p =>
    cases h with
    | early e =>
      cases p with
      | none => exact Heap.change_refl _
      | some p => exact .early (EarlyHeap.free_change hproper)
    | ready h => exact .ready (LedgerHeap.free_change (henabled _ rfl) p)
  | install config policy =>
    cases h with
    | early e => exact .installed e.machine.memory hproper
    | ready h => exact Heap.change_refl _
  | overwrite mem => exact (Heap.change_refl h).setMemory mem

end HostServices
