import HostServices.Proofs.Heap.Balance
import HostServices.Proofs.Heap.HostCalls
import HostServices.Proofs.Heap.Answer

/-!
# Damaged blocks

`Ledger.damages` lists what is wrong with the bytes around a block, in the order in which a check
looks at them; a check finds the first of it (`Ledger.inspectBlock_eq`). A release or a resize of a
block with any damage comes to a stop there: it reports that finding and takes the block out of the
ledger, and the host never hears of it (`LedgerHeap.rejects_free`, `LedgerHeap.rejects_realloc`). So
no damage goes unnoticed: `Heap.damage_reported`.
-/

namespace HostServices

open BlockHeader (Around)

namespace Ledger

variable {m m' : Memory} {p : UInt64} {b : LiveBlock} {c : Category} {kind : Corruption.Kind}

/-- The finding that a field does not have its recorded value, if so. -/
def mismatch {α : Type} [DecidableEq α] (kind : α → α → Corruption.Kind) (recorded found : α) :
    List Corruption.Kind :=
  if found = recorded then [] else [kind recorded found]

/-- What is wrong with the bytes around a block, by its record. -/
def damages (m : Memory) (p : UInt64) (b : LiveBlock) : List Corruption.Kind :=
  let found := BlockHeader.read m p
  mismatch .headerCanary b.header.canary found.canary ++
  mismatch (.headerMismatch .size) b.header.size found.size ++
  mismatch (fun recorded found => .headerMismatch .category recorded.toUInt64 found.toUInt64)
    b.header.category found.category ++
  mismatch (fun recorded found => .headerMismatch .marker recorded.toUInt64 found.toUInt64)
    b.header.marker found.marker ++
  mismatch .footerCanary BlockHeader.live.footer (BlockHeader.readFooter m p b.size)

/-- The check that comes to the first of some findings. -/
def firstOf (kinds : List Corruption.Kind) : Except Corruption.Kind Unit :=
  kinds.head?.elim (.ok ()) .error

theorem firstOf_append {α : Type} [DecidableEq α] (kind : α → α → Corruption.Kind)
    (recorded found : α) (rest : List Corruption.Kind) :
    firstOf (mismatch kind recorded found ++ rest) =
      if found ≠ recorded then throw (kind recorded found) else firstOf rest := by
  unfold mismatch
  by_cases h : found = recorded
  · rw [if_pos h, if_neg (not_not.2 h), List.nil_append]
  · rw [if_neg h, if_pos h]
    rfl

/-- A check finds the first damage. -/
theorem inspectBlock_eq (m : Memory) (p : UInt64) (b : LiveBlock) :
    inspectBlock m p b = firstOf (damages m p b) := by
  unfold damages
  dsimp only
  rw [← List.append_nil (_ ++ _)]
  simp only [List.append_assoc, firstOf_append]
  rfl

/-- There is damage exactly if the header or the footer is not what the block was given. -/
theorem damages_ne_nil_iff :
    damages m p b ≠ [] ↔
      BlockHeader.read m p ≠ b.header ∨ BlockHeader.readFooter m p b.size ≠ BlockHeader.live.footer := by
  have hok : inspectBlock m p b = .ok () ↔ damages m p b = [] := by
    rw [inspectBlock_eq]
    cases damages m p b with
    | nil => exact iff_of_true rfl rfl
    | cons kind kinds => exact iff_of_false nofun (List.cons_ne_nil _ _)
  rw [ne_eq, ← hok, BlockHeader.inspectBlock_eq_ok_iff, not_and_or]

/-- The first damage is what a resize for any category finds. -/
theorem inspectForResize_of_error (h : inspectBlock m p b = .error kind) (c : Category) :
    inspectForResize m p b c = .error kind := by
  unfold inspectForResize
  rw [h]
  rfl

end Ledger

/-! ## Rejected blocks -/

/-- An operation turns down the live block at `p`, with the record `b`, over a finding. It reports
the finding and no other, and takes the block out of the live table and out of the counters. The
early heap with the host and memory is as before, and of memory only the host block around the block
was read: with other bytes elsewhere, everything comes out the same. -/
structure LedgerHeap.Rejects {σ α : Type} (h : LedgerHeap σ) (p : UInt64) (b : LiveBlock)
    (found : Corruption) (a : α) (op : Op (LedgerHeap σ) α) : Prop where
  result : (op.run h).result = h.ledger.policy.answer found a
  reports : (op.run h).state.ledger.reports = h.ledger.reports ++ [found]
  alarms : (op.run h).events.filter (·.severity = .error) = [found.alarm]
  live : (op.run h).state.ledger.live = h.ledger.live.erase p
  summary : (op.run h).state.ledger.summary = h.ledger.summary.deallocate b.category b.size
  sites : (op.run h).state.ledger.sites = h.ledger.sites.deallocate b.marker b.size
  early : (op.run h).state.early = h.early
  reads (mem : Memory) : (∀ a, Around p b.size a → mem a = h.memory a) →
    op.run (h.setMemory mem) =
      ⟨(op.run h).result, (op.run h).state.setMemory mem, (op.run h).events⟩

namespace LedgerHeap

variable {σ : Type} {h : LedgerHeap σ} {p n : UInt64} {b : LiveBlock} {c : Category}
  {origin : Origin} {kind : Corruption.Kind}

theorem caught_setMemory (h : LedgerHeap σ) (mem : Memory) (operation : String) (p : UInt64) :
    (h.setMemory mem).caught operation p = h.caught operation p := by
  unfold caught catchPointer
  rw [Op.run_get_bind, Op.run_get_bind]
  show ((if h.ledger.config.catchPointer = some p then _ else _ : Op (LedgerHeap σ) Unit).run
    _).events = _
  split <;> rfl

theorem filter_caught (h : LedgerHeap σ) (operation : String) (p : UInt64) :
    (h.caught operation p).filter (·.severity = .error) = [] := by
  unfold caught catchPointer
  rw [Op.run_get_bind]
  split <;> rfl

variable [HostAllocator σ] {R : HostContract σ} (hs : Heap.Sound R (.ready h))
  (hlive : h.ledger.live.get? p = some b)
  (hkind : Ledger.inspectBlock h.memory p b = .error kind)
include hs hlive hkind

/-- What a check finds depends on the bytes of the host block only. -/
theorem inspectBlock_setMemory {mem : Memory} (hmem : ∀ a, Around p b.size a → mem a = h.memory a) :
    Ledger.inspectBlock mem p b = .error kind := by
  rw [← hkind]
  exact BlockHeader.inspectBlock_congr fun a ha =>
    hmem a (BlockHeader.around_of_inBand (hs.secured.length_lt hlive) ha)

theorem rejects_free : h.Rejects p b ⟨.free, p, kind⟩ () (free (some p)) := by
  have henabled : h.ledger.enabled = true := hs.enabled _ rfl
  have hp : h.early.blocks.contains p = false := hs.secured.not_early hlive (R.apart hs.valid)
  constructor <;> rw [free_damaged henabled hp hlive hkind]
  case alarms => rw [List.filter_append, filter_caught]; rfl
  case reads =>
    intro mem hmem
    rw [free_damaged (h := h.setMemory mem) henabled hp hlive
      (inspectBlock_setMemory hs hlive hkind hmem), caught_setMemory]
    rfl
  all_goals rfl

theorem rejects_realloc (hsize : (Word.max n 1).toNat + h.ledger.overhead.toNat < 2 ^ 64)
    (c : Category) (origin : Origin) :
    h.Rejects p b ⟨.realloc, p, kind⟩ none (realloc (some p) n c origin) := by
  have henabled : h.ledger.enabled = true := hs.enabled _ rfl
  have hp : h.early.blocks.contains p = false := hs.secured.not_early hlive (R.apart hs.valid)
  have hkind' := Ledger.inspectForResize_of_error hkind c
  constructor <;> rw [run_realloc_tracked henabled hp,
    reallocTracked_damaged henabled (Word.add?_of_lt hsize) hlive hkind']
  case reads =>
    intro mem hmem
    have hkind' :=
      Ledger.inspectForResize_of_error (inspectBlock_setMemory hs hlive hkind hmem) c
    rw [run_realloc_tracked (h := h.setMemory mem) henabled hp,
      reallocTracked_damaged (h := h.setMemory mem) henabled (Word.add?_of_lt hsize) hlive hkind']
    rfl
  all_goals rfl

end LedgerHeap

namespace Heap

variable {σ : Type} [HostAllocator σ] {R : HostContract σ}

theorem sound_fresh {s : σ} (hvalid : R.Valid s) (mem : Memory) : (fresh s mem).Sound R.journal :=
  sound_create ⟨hvalid, trivial, fun p hp => absurd hp (Set.notMem_empty p)⟩

/-- Whatever happened to a heap, a live block whose header or footer is not what it was given is
noticed at its next release, and at its next resize to a length that is a word: the first damage is
reported, and the block is out of the ledger and its counters, and stays with the host. -/
theorem damage_reported (R : HostContract σ) {s : σ} (hvalid : R.Valid s) (mem : Memory)
    (calls : List HeapCall) (hproper : HeapCall.ProperRun calls (fresh s mem))
    {h : LedgerHeap (Journal σ)} (hrun : HeapCall.run calls (fresh s mem) = .ready h) {p : UInt64}
    {b : LiveBlock} (hlive : h.ledger.live.get? p = some b)
    (hdamaged : BlockHeader.read h.memory p ≠ b.header ∨
      BlockHeader.readFooter h.memory p b.size ≠ BlockHeader.live.footer) :
    ∃ kind, (Ledger.damages h.memory p b).head? = some kind ∧
      h.Rejects p b ⟨.free, p, kind⟩ () (LedgerHeap.free (some p)) ∧
      ((HeapCall.free (some p)).perform (.ready h)).hostCalls = hostCalls (.ready h) ∧
      (∀ n c origin, (Word.max n 1).toNat + h.ledger.overhead.toNat < 2 ^ 64 →
        h.Rejects p b ⟨.realloc, p, kind⟩ none (LedgerHeap.realloc (some p) n c origin) ∧
          ((HeapCall.realloc (some p) n c origin).perform (.ready h)).hostCalls =
            hostCalls (.ready h)) ∧
      ((HeapCall.requestersOf calls).card < 2 ^ 32 →
        (h.ledger.retire p b).Tallies (h.ledger.live.erase p).values) := by
  have hcreate := sound_fresh hvalid mem
  have hs : Sound R.journal (.ready h) := hrun ▸ hcreate.run hproper
  obtain ⟨kind, kinds, hkinds⟩ :=
    List.exists_cons_of_ne_nil (Ledger.damages_ne_nil_iff.2 hdamaged)
  have hkind : Ledger.inspectBlock h.memory p b = .error kind := by
    rw [Ledger.inspectBlock_eq, hkinds]
    rfl
  have hfree := LedgerHeap.rejects_free hs hlive hkind
  refine ⟨kind, by rw [hkinds, List.head?_cons], hfree,
    congrArg (fun e => e.machine.host.calls) hfree.early, fun n c origin hsize => ?_, fun hcard => ?_⟩
  · have hrealloc := LedgerHeap.rejects_realloc hs hlive hkind hsize c origin
    exact ⟨hrealloc, congrArg (fun e => e.machine.host.calls) hrealloc.early⟩
  · have hbalanced : Balanced (HeapCall.requestersOf calls) (.ready h) := by
      rw [← hrun]
      exact (balanced_early _).run hcreate hcard
        (fun call hcall => HeapCall.requesters_subset hcall) hproper
    exact ((hbalanced _ rfl).retire hlive).tallies

/-- A block at the level of call sites. -/
def fortyBytes : List HeapCall :=
  [.install { tracking := .detail } .keep, .malloc 40 .compiler ⟨⟨"src/jit.rs", 7, 9⟩, .empty⟩]

/-- A byte is written behind the last of the block. -/
def overrunRun : List HeapCall :=
  fortyBytes ++ [.overwrite ((HeapCall.run fortyBytes
    (fresh ({} : FreshAllocator) Memory.zero)).memory.write 0x100000000038 #[0x41])]

/-- The record of the block. -/
def overrunBlock : LiveBlock :=
  ⟨40, .compiler, ⟨⟨"src/jit.rs", 7, 9⟩, .empty⟩, 1⟩

theorem damage_reported_overrunRun :
    FreshAllocator.contract.Valid {} ∧
      HeapCall.ProperRun overrunRun (fresh ({} : FreshAllocator) Memory.zero) ∧
      ∃ h, HeapCall.run overrunRun (fresh ({} : FreshAllocator) Memory.zero) = .ready h ∧
        h.ledger.live.get? 0x100000000010 = some overrunBlock ∧
        BlockHeader.readFooter h.memory 0x100000000010 40 ≠ BlockHeader.live.footer ∧
        h.Rejects 0x100000000010 overrunBlock
          ⟨.free, 0x100000000010, .footerCanary 0xe88e 0xe841⟩ ()
          (LedgerHeap.free (some 0x100000000010)) := by
  have hvalid : FreshAllocator.contract.Valid {} := FreshAllocator.wellFormed_empty
  have hproper : HeapCall.ProperRun overrunRun (fresh ({} : FreshAllocator) Memory.zero) :=
    ⟨rfl, trivial, trivial, trivial⟩
  have hlive : (HeapCall.run overrunRun (fresh ({} : FreshAllocator) Memory.zero)).live.get?
      0x100000000010 = some overrunBlock := by decide +kernel
  have hdamages : Ledger.damages
      (HeapCall.run overrunRun (fresh ({} : FreshAllocator) Memory.zero)).memory 0x100000000010
        overrunBlock = [.footerCanary 0xe88e 0xe841] := by decide +kernel
  have hfooter : BlockHeader.readFooter
      (HeapCall.run overrunRun (fresh ({} : FreshAllocator) Memory.zero)).memory 0x100000000010 40 ≠
        BlockHeader.live.footer := by decide +kernel
  obtain ⟨h, hrun⟩ : ∃ h, HeapCall.run overrunRun (fresh ({} : FreshAllocator) Memory.zero) =
      .ready h := ⟨_, rfl⟩
  rw [hrun] at hlive hdamages hfooter
  obtain ⟨kind, hkind, hrejects, -⟩ := damage_reported FreshAllocator.contract hvalid Memory.zero
    overrunRun hproper hrun hlive (.inr hfooter)
  have hdamages : Ledger.damages h.memory 0x100000000010 overrunBlock = _ := hdamages
  rw [hdamages] at hkind
  obtain rfl := Option.some.inj hkind
  exact ⟨hvalid, hproper, h, hrun, hlive, hfooter, hrejects⟩

end Heap

end HostServices
