import HostServices.Proofs.Heap.Footprint

/-!
# The callers of a heap

`Clients` are a heap and the pointers to its blocks that its callers hold, apart by whether a block
was first asked for without a ledger. Callers make calls (`ClientCall`) with pointers that they hold
and may write anything anywhere. Each pointer has a host block behind it (`Clients.hostBlocks`),
which is the block itself for an early one. A call for a block in the early table is a call of the
host and nothing else (`Heap.realloc_early`, `Heap.free_early`).
-/

namespace HostServices

/-! ## Blocks that are held -/

namespace Blocks

variable {B : Blocks} {held held' : List (UInt64 × UInt64)} {x : UInt64 × UInt64} {q n k : UInt64}

/-- Different blocks among the blocks `B`, each longer than the number beside its start. -/
structure Holds (B : Blocks) (held : List (UInt64 × UInt64)) : Prop where
  nodup : (held.map (·.1)).Nodup
  longer : ∀ {x}, x ∈ held → ∃ n, B x.1 = some n ∧ x.2 < n

namespace Holds

theorem empty (B : Blocks) : B.Holds [] :=
  ⟨List.nodup_nil, nofun⟩

theorem perm (h : B.Holds held) (hperm : held.Perm held') : B.Holds held' :=
  ⟨(hperm.map _).nodup_iff.1 h.nodup, fun hx => h.longer (hperm.mem_iff.2 hx)⟩

theorem ne_none (h : B.Holds held) (hx : x ∈ held) : B x.1 ≠ none := by
  obtain ⟨n, hn, -⟩ := h.longer hx
  exact Option.ne_none_iff_exists'.2 ⟨n, hn⟩

theorem tail (h : B.Holds (x :: held)) : B.Holds held :=
  ⟨(List.nodup_cons.1 h.nodup).2, fun hy => h.longer (List.mem_cons_of_mem _ hy)⟩

/-- A block that is not held may be taken. -/
theorem of_take (h : B.Holds held) (hq : B q = none) : (B.take q n).Holds held where
  nodup := h.nodup
  longer {x} hx := by
    obtain ⟨n, hn, hlt⟩ := h.longer hx
    refine ⟨n, ?_, hlt⟩
    rwa [take_of_ne fun heq => by rw [heq, hq] at hn; cases hn]

theorem take (h : B.Holds held) (hq : B q = none) (hk : k < n) : (B.take q n).Holds ((q, k) :: held)
    where
  nodup := by
    refine List.nodup_cons.2 ⟨fun hin => ?_, h.nodup⟩
    obtain ⟨x, hx, heq⟩ := List.mem_map.1 hin
    exact h.ne_none hx (heq ▸ hq)
  longer {x} hx := by
    rcases List.mem_cons.1 hx with rfl | hx
    · exact ⟨n, take_self, hk⟩
    · exact (h.of_take hq).longer hx

theorem drop (h : B.Holds (x :: held)) : (B.drop x.1).Holds held where
  nodup := h.tail.nodup
  longer {y} hy := by
    have hne : y.1 ≠ x.1 := fun heq =>
      (List.nodup_cons.1 h.nodup).1 (List.mem_map.2 ⟨y, hy, heq⟩)
    rw [drop_of_ne hne]
    exact h.tail.longer hy

end Holds

end Blocks

/-! ## Callers and their blocks -/

namespace Ledger

/-- The host block of the one at `p`, and the length of what is around the user's bytes. -/
def blockOf (l : Ledger) (p : UInt64) : UInt64 × UInt64 :=
  (l.outerOf p, l.overhead)

theorem Spares.blockOf {l l' : Ledger} {touched : List UInt64} (h : l.Spares touched l') :
    l'.blockOf = l.blockOf := by
  have henabled : l'.enabled = l.enabled := by
    unfold enabled level
    rw [h.config]
  funext p
  unfold Ledger.blockOf outerOf overhead
  rw [henabled]

end Ledger

namespace Heap

variable {σ : Type}

/-- The host block of a block that is not early. -/
def blockOf (h : Heap σ) (p : UInt64) : UInt64 × UInt64 :=
  h.ledger?.elim (p, 0) (·.blockOf p)

theorem blockOf_of_ledger {h : Heap σ} {l : Ledger} (hl : h.ledger? = some l) :
    h.blockOf = l.blockOf := by
  funext p
  rw [blockOf, hl, Option.elim_some]

/-- The heap with other contents of what does not depend on a ledger. -/
def withBase (e : EarlyHeap σ) : Heap σ → Heap σ
  | early _ => early e
  | ready h => ready { h with early := e }

@[simp] theorem base_withBase (e : EarlyHeap σ) (h : Heap σ) : (h.withBase e).base = e := by
  cases h <;> rfl

@[simp] theorem ledger?_withBase (e : EarlyHeap σ) (h : Heap σ) :
    (h.withBase e).ledger? = h.ledger? := by
  cases h <;> rfl

end Heap

/-- A heap, and the pointers to blocks of it that are out: those to blocks that were first asked for
without a ledger, and the others. -/
structure Clients (σ : Type) where
  heap : Heap σ
  early : List UInt64 := []
  late : List UInt64 := []

/-- What callers do: a call with any arguments, or writing anything anywhere. -/
inductive ClientCall
  | malloc (n : UInt64) (c : Category) (origin : Origin)
  | duplicate (text : List UInt8) (c : Category) (origin : Origin)
  | duplicateOrExit (text : List UInt8) (c : Category) (origin : Origin)
  | realloc (p : Option UInt64) (n : UInt64) (c : Category) (origin : Origin)
  | free (p : Option UInt64)
  | install (l : Ledger)
  | overwrite (mem : Memory)

namespace Clients

variable {σ : Type} {s : Clients σ} {heap heap' : Heap σ} {p : UInt64}

/-- All host blocks behind the pointers. -/
def hostBlocks (s : Clients σ) : List (UInt64 × UInt64) :=
  s.early.map (·, 0) ++ s.late.map s.heap.blockOf

theorem map_fst_hostBlocks (s : Clients σ) :
    s.hostBlocks.map (·.1) = s.early ++ s.late.map fun p => (s.heap.blockOf p).1 := by
  have hearly : (s.early.map (·, (0 : UInt64))).map (·.1) = s.early := by
    rw [List.map_map]
    exact List.map_id _
  unfold hostBlocks
  rw [List.map_append, hearly, List.map_map]
  rfl

theorem hostBlocks_congr (h : heap'.blockOf = heap.blockOf) (early late : List UInt64) :
    hostBlocks ⟨heap', early, late⟩ = hostBlocks ⟨heap, early, late⟩ := by
  unfold hostBlocks
  rw [h]

theorem hostBlocks_late (heap : Heap σ) (blocks early late : List UInt64) :
    (hostBlocks ⟨heap, early, blocks ++ late⟩).Perm
      (blocks.map heap.blockOf ++ hostBlocks ⟨heap, early, late⟩) := by
  unfold hostBlocks
  rw [List.map_append]
  exact List.perm_append_comm_assoc ..

theorem mem_hostBlocks_early (hp : p ∈ s.early) : (p, 0) ∈ s.hostBlocks :=
  List.mem_append_left _ (List.mem_map_of_mem hp)

theorem mem_hostBlocks_late (hp : p ∈ s.late) : s.heap.blockOf p ∈ s.hostBlocks :=
  List.mem_append_right _ (List.mem_map_of_mem hp)

/-- The block that is answered, if any. -/
def answered : Except Stop (Option UInt64) → List UInt64
  | .ok (some p) => [p]
  | .ok none | .error _ => []

/-- A new block is early if there is no ledger. -/
def receive (s : Clients σ) (out : Outcome (Heap σ) (Option UInt64)) : Clients σ :=
  match s.heap.ledger? with
  | none => { s with heap := out.state, early := answered out.result ++ s.early }
  | some _ => { s with heap := out.state, late := answered out.result ++ s.late }

/-- Other blocks in place of the one at `p`, of the same kind. -/
def replace (s : Clients σ) (p : UInt64) (heap : Heap σ) (blocks : List UInt64) : Clients σ :=
  if p ∈ s.early then { s with heap, early := blocks ++ s.early.erase p }
  else { s with heap, late := blocks ++ s.late.erase p }

/-- What is left of a block after its resize: the block that is answered, the old one if there is
none, and nothing when the call does not return. -/
def resized (p : UInt64) : Except Stop (Option UInt64) → List UInt64
  | .ok answer => [answer.getD p]
  | .error _ => []

end Clients

namespace ClientCall

variable {σ : Type} [HostAllocator σ]

/-- What a call leaves, and which pointers are out then. -/
def perform : ClientCall → Clients σ → Clients σ
  | malloc n c origin, s => s.receive ((Heap.malloc n c origin).run s.heap)
  | duplicate text c origin, s => s.receive ((Heap.duplicate text c origin).run s.heap)
  | duplicateOrExit text c origin, s =>
    let out := (Heap.duplicateOrExit text c origin).run s.heap
    s.receive { out with result := out.result.map some }
  | realloc none n c origin, s => s.receive ((Heap.realloc none n c origin).run s.heap)
  | realloc (some p) n c origin, s =>
    let out := (Heap.realloc (some p) n c origin).run s.heap
    s.replace p out.state (Clients.resized p out.result)
  | free none, s => { s with heap := ((Heap.free none).run s.heap).state }
  | free (some p), s => s.replace p ((Heap.free (some p)).run s.heap).state []
  | install l, s => { s with heap := ((Heap.install l).run s.heap).state }
  | overwrite mem, s => { s with heap := s.heap.setMemory mem }

/-- The pointer that is passed, if any. -/
def passed? : ClientCall → Option UInt64
  | realloc p .. | free p => p
  | malloc .. | duplicate .. | duplicateOrExit .. | install _ | overwrite _ => none

/-- Callers pass pointers that are out. -/
def Proper (call : ClientCall) (s : Clients σ) : Prop :=
  ∀ p, call.passed? = some p → p ∈ s.early ∨ p ∈ s.late

/-- What calls one after another leave. -/
def run (calls : List ClientCall) (s : Clients σ) : Clients σ :=
  calls.foldl (fun s call => call.perform s) s

/-- Each call is proper when it is made. -/
def ProperRun : List ClientCall → Clients σ → Prop
  | [], _ => True
  | call :: calls, s => call.Proper s ∧ ProperRun calls (call.perform s)

end ClientCall

/-! ## Calls for early blocks -/

namespace Heap

variable {σ : Type} [HostAllocator σ]

omit [HostAllocator σ] in
theorem run_choose_early {α : Type} (op : Op (EarlyHeap σ) α) (op' : Op (LedgerHeap σ) α)
    (e : EarlyHeap σ) :
    (choose op op').run (early e) =
      ⟨(op.run e).result, early (op.run e).state, (op.run e).events⟩ := rfl

omit [HostAllocator σ] in
theorem run_choose_ready {α : Type} (op : Op (EarlyHeap σ) α) (op' : Op (LedgerHeap σ) α)
    (h : LedgerHeap σ) :
    (choose op op').run (ready h) =
      ⟨(op'.run h).result, ready (op'.run h).state, (op'.run h).events⟩ := rfl

/-- The host's answer to a request for a block, which is remembered, and nothing else. -/
def bareMalloc (n : UInt64) (h : Heap σ) : Option UInt64 × Heap σ :=
  match HostAllocator.malloc (Word.max n 1) h.base.machine with
  | (none, m) => (none, h.withBase ⟨m, h.base.blocks⟩)
  | (some p, m) => (some p, h.withBase ⟨m, h.base.blocks.insert p⟩)

/-- The host's answer to a resize of the block at `p`, which is remembered instead of `p`, and
nothing else. -/
def bareRealloc (p n : UInt64) (h : Heap σ) : Option UInt64 × Heap σ :=
  match HostAllocator.realloc p (Word.max n 1) h.base.machine with
  | (none, m) => (none, h.withBase ⟨m, h.base.blocks⟩)
  | (some q, m) => (some q, h.withBase ⟨m, (h.base.blocks.erase p).insert q⟩)

/-- The block at `p` goes back to the host and is forgotten, and nothing else. -/
def bareFree (p : UInt64) (h : Heap σ) : Heap σ :=
  h.withBase ⟨HostAllocator.free p h.base.machine, h.base.blocks.erase p⟩

section host

variable {h : Heap σ} {p q n : UInt64} {m : Machine σ}

theorem bareMalloc_refused
    (hcall : HostAllocator.malloc (Word.max n 1) h.base.machine = (none, m)) :
    h.bareMalloc n = (none, h.withBase ⟨m, h.base.blocks⟩) := by
  rw [bareMalloc, hcall]

theorem bareMalloc_granted
    (hcall : HostAllocator.malloc (Word.max n 1) h.base.machine = (some p, m)) :
    h.bareMalloc n = (some p, h.withBase ⟨m, h.base.blocks.insert p⟩) := by
  rw [bareMalloc, hcall]

theorem bareRealloc_refused
    (hcall : HostAllocator.realloc p (Word.max n 1) h.base.machine = (none, m)) :
    h.bareRealloc p n = (none, h.withBase ⟨m, h.base.blocks⟩) := by
  rw [bareRealloc, hcall]

theorem bareRealloc_granted
    (hcall : HostAllocator.realloc p (Word.max n 1) h.base.machine = (some q, m)) :
    h.bareRealloc p n = (some q, h.withBase ⟨m, (h.base.blocks.erase p).insert q⟩) := by
  rw [bareRealloc, hcall]

end host

theorem malloc_without_ledger {h : Heap σ} (hl : h.ledger? = none) (n : UInt64) (c : Category)
    (origin : Origin) :
    ((malloc n c origin).run h).result = .ok (h.bareMalloc n).1 ∧
      ((malloc n c origin).run h).state = (h.bareMalloc n).2 := by
  cases h with
  | ready h => cases hl
  | early e =>
    show ((EarlyHeap.malloc n).run e).result = _ ∧ early ((EarlyHeap.malloc n).run e).state = _
    rcases hcall : HostAllocator.malloc (Word.max n 1) e.machine with ⟨_ | p, m⟩
    · rw [EarlyHeap.malloc_refused hcall, bareMalloc_refused (h := early e) hcall]
      exact ⟨rfl, rfl⟩
    · obtain ⟨hstate, hresult⟩ := EarlyHeap.malloc_granted hcall
      rw [hstate, hresult, bareMalloc_granted (h := early e) hcall]
      exact ⟨rfl, rfl⟩

section early

variable {h : Heap σ} {p : UInt64} (hp : h.base.blocks.contains p = true)
include hp

theorem realloc_early (n : UInt64) (c : Category) (origin : Origin) :
    (realloc (some p) n c origin).run h =
      ⟨.ok (h.bareRealloc p n).1, (h.bareRealloc p n).2, []⟩ := by
  have onBase {result : Except Stop (Option UInt64)} {e : EarlyHeap σ}
      (hrun : (EarlyHeap.realloc (some p) n).run h.base = ⟨result, e, []⟩) :
      (realloc (some p) n c origin).run h = ⟨result, h.withBase e, []⟩ := by
    cases h with
    | early e' =>
      rw [realloc, run_choose_early, show (EarlyHeap.realloc _ n).run e' = _ from hrun]
      rfl
    | ready h =>
      rw [realloc, run_choose_ready, LedgerHeap.run_realloc_early hp, LedgerHeap.run_onEarly,
        show (EarlyHeap.realloc _ n).run h.early = _ from hrun]
      rfl
  rcases hcall : HostAllocator.realloc p (Word.max n 1) h.base.machine with ⟨_ | q, m⟩
  · rw [bareRealloc_refused hcall]
    exact onBase (EarlyHeap.realloc_refused hcall)
  · rw [bareRealloc_granted hcall]
    exact onBase (EarlyHeap.realloc_granted hcall)

theorem free_early : (free (some p)).run h = ⟨.ok (), h.bareFree p, []⟩ := by
  cases h with
  | early e => rfl
  | ready h =>
    rw [free, run_choose_ready, LedgerHeap.run_free_early hp]
    rfl

end early

/-- A copy of a text is a new block with something written to it. -/
theorem run_duplicate (text : List UInt8) (c : Category) (origin : Origin) (h : Heap σ) :
    ∃ n mem, ((duplicate text c origin).run h).state =
        ((malloc n c origin).run h).state.setMemory mem ∧
      ((duplicate text c origin).run h).result = ((malloc n c origin).run h).result := by
  have hsame (h : Heap σ) : h = h.setMemory h.memory := by cases h <;> rfl
  refine ⟨UInt64.ofNat (text ++ [0]).length, ?_⟩
  unfold duplicate
  dsimp only
  cases hresult : ((malloc (UInt64.ofNat (text ++ [0]).length) c origin).run h).result with
  | error e =>
    rw [Op.state_bind_of_error hresult, Op.result_bind_of_error hresult]
    exact ⟨_, hsame _, rfl⟩
  | ok answer =>
    rw [Op.state_bind_of_ok hresult, Op.result_bind_of_ok hresult]
    cases answer with
    | none => exact ⟨_, hsame _, rfl⟩
    | some p => exact ⟨_, rfl, rfl⟩

/-- Where the process ends for want of a block, no block is answered. -/
theorem run_duplicateOrExit (text : List UInt8) (c : Category) (origin : Origin) (h : Heap σ) :
    ((duplicateOrExit text c origin).run h).state = ((duplicate text c origin).run h).state ∧
      Clients.answered (((duplicateOrExit text c origin).run h).result.map some) =
        Clients.answered ((duplicate text c origin).run h).result := by
  unfold duplicateOrExit
  cases hresult : ((duplicate text c origin).run h).result with
  | error e =>
    rw [Op.state_bind_of_error hresult, Op.result_bind_of_error hresult]
    exact ⟨rfl, rfl⟩
  | ok answer =>
    rw [Op.state_bind_of_ok hresult, Op.result_bind_of_ok hresult]
    cases answer <;> exact ⟨rfl, rfl⟩

/-- What the ledger, if there is one, has about an address. -/
def about? (h : Heap σ) (p : UInt64) : Option (Option LiveBlock × List Corruption) :=
  h.ledger?.map (·.about p)

end Heap

end HostServices
