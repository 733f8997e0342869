import HostServices.Proofs.Ledger.Turn

/-!
# Blocks on their way through a resize

A resize takes a block out of the live table, and only later puts it back or takes it out of the
counters as well. In between the block is pending, and other calls on the ledger go on: they may
even record another block at its address. `Resizing` is a ledger with the blocks that are pending,
each of which is put back or finished once. The counters stand for the live and the pending blocks
together (`Accounted`), and each call keeps that (`Accounted.perform`), so they do after any calls
in any order (`counters_tally_pending`).
-/

namespace HostServices

open BlockHeader (innerOf)

/-- A ledger in use, and what the resizes under way keep of their blocks. -/
structure Resizing where
  tracked : TrackedMemory
  pending : List Removed

/-- A call on a ledger. A block that is pending is named by its place among those that are. -/
inductive LedgerCall
  | record (outer n : UInt64) (c : Category) (origin : Origin)
  | free (inner : UInt64)
  | markDead (inner : UInt64) (c : Category)
  | revive (i : Nat)
  | deaccount (i : Nat)
  /-- Anything at all is written into memory. -/
  | overwrite (m : Memory)

namespace LedgerCall

/-- What a resize keeps of its block, if it took one from the live table. -/
def kept : Except Stop (Except Corruption Removed) → List Removed
  | .ok (.ok removed) => [removed]
  | .ok (.error _) | .error _ => []

/-- Perform a call. What a resize keeps goes to the end of what is pending. -/
def perform (call : LedgerCall) (s : Resizing) : Resizing :=
  match call with
  | record outer n c origin =>
    { s with tracked := ((TrackedMemory.recordMalloc outer n c origin).run s.tracked).state }
  | free inner => { s with tracked := ((TrackedMemory.recordFree inner).run s.tracked).state }
  | markDead inner c =>
    let out := (TrackedMemory.markDeadForRealloc inner c).run s.tracked
    ⟨out.state, s.pending ++ kept out.result⟩
  | revive i =>
    match s.pending[i]? with
    | some removed => ⟨TrackedMemory.revive removed s.tracked, s.pending.eraseIdx i⟩
    | none => s
  | deaccount i =>
    match s.pending[i]? with
    | some removed =>
      ⟨{ s.tracked with ledger := s.tracked.ledger.deaccount removed }, s.pending.eraseIdx i⟩
    | none => s
  | overwrite m => { s with tracked := { s.tracked with memory := m } }

/-- A fresh block is recorded where none is live, and the call returns. A pending block is put back
while its own block is still there, so that no other one is live at its address. -/
def Proper (call : LedgerCall) (s : Resizing) : Prop :=
  match call with
  | record outer n c origin =>
    s.tracked.ledger.live.get? (innerOf outer) = none ∧
      ∃ p, ((TrackedMemory.recordMalloc outer n c origin).run s.tracked).result = .ok p
  | revive i =>
    ∃ removed, s.pending[i]? = some removed ∧ s.tracked.ledger.live.get? removed.inner = none
  | deaccount i => i < s.pending.length
  | free _ | markDead .. | overwrite _ => True

/-- The state after calls. -/
def run (calls : List LedgerCall) (s : Resizing) : Resizing :=
  calls.foldl (fun s call => call.perform s) s

/-- Each call is proper where it is made. -/
def ProperRun : List LedgerCall → Resizing → Prop
  | [], _ => True
  | call :: calls, s => call.Proper s ∧ ProperRun calls (call.perform s)

/-- The call takes the block at an address out of the live table, if there is one. -/
def Removes (a : UInt64) : LedgerCall → Prop
  | free inner | markDead inner _ => inner = a
  | record .. | revive _ | deaccount _ | overwrite _ => False

theorem run_append (calls calls' : List LedgerCall) (s : Resizing) :
    run (calls ++ calls') s = run calls' (run calls s) :=
  List.foldl_append

theorem properRun_append {calls calls' : List LedgerCall} {s : Resizing} :
    ProperRun (calls ++ calls') s ↔ ProperRun calls s ∧ ProperRun calls' (run calls s) := by
  induction calls generalizing s with
  | nil => exact (iff_of_eq (true_and _)).symm
  | cons call calls ih => exact (and_congr_right fun _ => ih).trans and_assoc.symm

end LedgerCall

/-! ## The live table -/

namespace TrackedMemory

variable {t : TrackedMemory} {inner : UInt64} {c : Category}

theorem live_recordFree (henabled : t.ledger.enabled = true) (inner : UInt64) :
    ((recordFree inner).run t).state.ledger.live = t.ledger.live.erase inner := by
  cases hlive : t.ledger.live.get? inner with
  | none =>
    rw [recordFree_notLive henabled hlive, AddressMap.erase_of_get?_eq_none hlive]
    rfl
  | some b =>
    cases hkind : Ledger.inspectBlock t.memory inner b with
    | error kind =>
      rw [recordFree_damaged henabled hlive hkind]
      rfl
    | ok u =>
      rw [(recordFree_intact henabled hlive hkind).1]
      rfl

theorem live_markDeadForRealloc (henabled : t.ledger.enabled = true) (inner : UInt64)
    (c : Category) :
    ((markDeadForRealloc inner c).run t).state.ledger.live = t.ledger.live.erase inner := by
  cases hlive : t.ledger.live.get? inner with
  | none =>
    rw [markDeadForRealloc_notLive henabled hlive, AddressMap.erase_of_get?_eq_none hlive]
    rfl
  | some b =>
    cases hkind : Ledger.inspectForResize t.memory inner b c with
    | error kind =>
      rw [markDeadForRealloc_damaged henabled hlive hkind]
      rfl
    | ok u =>
      rw [markDeadForRealloc_intact henabled hlive hkind]
      rfl

end TrackedMemory

namespace Resizing

variable {s : Resizing} {call : LedgerCall} {calls : List LedgerCall} {a inner outer n : UInt64}
  {b : LiveBlock} {c : Category} {origin : Origin} {i : Nat} {removed : Removed}

/-- The blocks in the counters: those that are live and those that are pending. -/
def counted (s : Resizing) : List LiveBlock :=
  s.tracked.ledger.live.values ++ s.pending.filterMap (·.block)

/-- The counters stand for the live and the pending blocks together, and each requester has a
marker. -/
structure Accounted (s : Resizing) : Prop where
  enabled : s.tracked.ledger.enabled = true
  tallies : s.tracked.ledger.Tallies s.counted
  marked : s.tracked.ledger.level = .detail → s.tracked.ledger.sites.entries.length < 2 ^ 32

/-- A block that is no longer pending was one of those that were. -/
theorem pending_perm (h : s.pending[i]? = some removed) (blocks : List LiveBlock) :
    (blocks ++ s.pending.filterMap (·.block)).Perm
      (removed.block.toList ++ (blocks ++ (s.pending.eraseIdx i).filterMap (·.block))) := by
  obtain ⟨hlt, hget⟩ := List.getElem?_eq_some_iff.1 h
  have hpending : (s.pending.filterMap (·.block)).Perm
      (removed.block.toList ++ (s.pending.eraseIdx i).filterMap (·.block)) := by
    have hfilter := (List.getElem_cons_eraseIdx_perm hlt).symm.filterMap (·.block)
    rw [hget] at hfilter
    cases hblock : removed.block with
    | none => rwa [List.filterMap_cons_none hblock] at hfilter
    | some b => rwa [List.filterMap_cons_some hblock] at hfilter
  refine (hpending.append_left blocks).trans ?_
  rw [← List.append_assoc, ← List.append_assoc]
  exact List.perm_append_comm.append_right _

namespace Accounted

/-- A ledger with the same counters of the same blocks. -/
theorem of_perm (h : s.Accounted) {s' : Resizing}
    (hlevel : s'.tracked.ledger.level = s.tracked.ledger.level)
    (hsummary : s'.tracked.ledger.summary = s.tracked.ledger.summary)
    (hsites : s'.tracked.ledger.sites = s.tracked.ledger.sites)
    (hcounted : s.counted.Perm s'.counted) : s'.Accounted where
  enabled := by
    have henabled := h.enabled
    unfold Ledger.enabled at henabled ⊢
    rwa [hlevel]
  tallies := by
    obtain ⟨htallies, htallies'⟩ := h.tallies.perm hcounted
    rw [← hsummary] at htallies
    rw [← hlevel, ← hsites] at htallies'
    exact ⟨htallies, htallies'⟩
  marked := by
    rw [hlevel, hsites]
    exact h.marked

/-- A ledger with one block less in its counters. -/
theorem of_discharge (h : s.Accounted) {s' : Resizing}
    (hlevel : s'.tracked.ledger.level = s.tracked.ledger.level)
    (hsummary : s'.tracked.ledger.summary = (s.tracked.ledger.discharge b).summary)
    (hsites : s'.tracked.ledger.sites = (s.tracked.ledger.discharge b).sites)
    (hcounted : s.counted.Perm (b :: s'.counted)) : s'.Accounted where
  enabled := by
    have henabled := h.enabled
    unfold Ledger.enabled at henabled ⊢
    rwa [hlevel]
  tallies := by
    obtain ⟨htallies, htallies'⟩ := (h.tallies.perm hcounted).discharge
    rw [← hsummary] at htallies
    rw [← hsites] at htallies'
    exact ⟨htallies, fun hdetail => htallies' (hlevel.symm.trans hdetail)⟩
  marked := by
    rw [hlevel, hsites]
    intro hdetail
    exact (SiteTable.length_deallocate ..).trans_lt (h.marked hdetail)

theorem record (h : s.Accounted) (hproper : (LedgerCall.record outer n c origin).Proper s) :
    ((LedgerCall.record outer n c origin).perform s).Accounted := by
  obtain ⟨hfresh, p, hreturns⟩ := hproper
  obtain ⟨hfits, hmarker⟩ := TrackedMemory.fits_of_recordMalloc h.enabled h.marked hreturns
  have hcharged := h.tallies.charge hfits hmarker
  rw [LedgerCall.perform, (TrackedMemory.recordMalloc_of_fits h.enabled hfits hmarker).1]
  generalize s.tracked.ledger.originOf origin = kept at hfits hmarker hcharged ⊢
  have hperm := (AddressMap.values_insert_perm
    (v := ⟨n, c, kept, (s.tracked.ledger.charge c kept n).2⟩) hfresh).append_right
      (s.pending.filterMap (·.block))
  have hlevel : (s.tracked.ledger.charge c kept n).1.level = s.tracked.ledger.level :=
    Ledger.level_charge
  have hlive : (s.tracked.ledger.charge c kept n).1.live = s.tracked.ledger.live :=
    Ledger.live_charge
  refine ⟨?_, ?_, fun hdetail => ?_⟩
  · have henabled := h.enabled
    unfold Ledger.enabled at henabled
    show (s.tracked.ledger.charge c kept n).1.level.enabled = true
    rwa [hlevel]
  · have htallies := hcharged.perm hperm.symm
    rw [← hlive] at htallies
    exact ⟨htallies.summary, htallies.sites⟩
  · have hdetail : s.tracked.ledger.level = .detail := hlevel.symm.trans hdetail
    show (s.tracked.ledger.charge c kept n).1.sites.entries.length < 2 ^ 32
    rw [Ledger.sites_charge hdetail]
    exact SiteTable.length_charge (h.marked hdetail) (hmarker hdetail)

theorem free (h : s.Accounted) (inner : UInt64) :
    ((LedgerCall.free inner).perform s).Accounted := by
  rw [LedgerCall.perform]
  cases hlive : s.tracked.ledger.live.get? inner with
  | none =>
    rw [TrackedMemory.recordFree_notLive h.enabled hlive]
    exact h.of_perm rfl rfl rfl (List.Perm.refl _)
  | some b =>
    have hperm : s.counted.Perm (b :: ((s.tracked.ledger.live.erase inner).values ++
        s.pending.filterMap (·.block))) :=
      (AddressMap.values_erase_perm hlive).append_right _
    cases hkind : Ledger.inspectBlock s.tracked.memory inner b with
    | error kind =>
      rw [TrackedMemory.recordFree_damaged h.enabled hlive hkind]
      exact h.of_discharge rfl rfl rfl hperm
    | ok u =>
      rw [(TrackedMemory.recordFree_intact h.enabled hlive hkind).1]
      exact h.of_discharge rfl rfl rfl hperm

theorem markDead (h : s.Accounted) (inner : UInt64) (c : Category) :
    ((LedgerCall.markDead inner c).perform s).Accounted := by
  rw [LedgerCall.perform]
  have kept_reported (t : TrackedMemory) (corruption : Corruption) :
      LedgerCall.kept (t.reported corruption).result = [] := by
    rcases t with ⟨⟨_, _, _, _, policy, _⟩, _⟩
    cases policy <;> rfl
  cases hlive : s.tracked.ledger.live.get? inner with
  | none =>
    rw [TrackedMemory.markDeadForRealloc_notLive h.enabled hlive, kept_reported, List.append_nil]
    exact h.of_perm rfl rfl rfl (List.Perm.refl _)
  | some b =>
    have hperm : s.counted.Perm (b :: ((s.tracked.ledger.live.erase inner).values ++
        s.pending.filterMap (·.block))) :=
      (AddressMap.values_erase_perm hlive).append_right _
    cases hkind : Ledger.inspectForResize s.tracked.memory inner b c with
    | error kind =>
      rw [TrackedMemory.markDeadForRealloc_damaged h.enabled hlive hkind, kept_reported,
        List.append_nil]
      exact h.of_discharge rfl rfl rfl hperm
    | ok u =>
      rw [TrackedMemory.markDeadForRealloc_intact h.enabled hlive hkind]
      refine h.of_perm rfl rfl rfl (hperm.trans ?_)
      show (b :: _).Perm ((s.tracked.ledger.live.erase inner).values ++
        (s.pending ++ [(⟨inner, some b⟩ : Removed)]).filterMap (·.block))
      rw [List.filterMap_append, ← List.append_assoc]
      exact (List.perm_append_singleton b _).symm

theorem revive (h : s.Accounted) (hproper : (LedgerCall.revive i).Proper s) :
    ((LedgerCall.revive i).perform s).Accounted := by
  obtain ⟨removed, hremoved, hfresh⟩ := hproper
  have hperm := pending_perm hremoved s.tracked.ledger.live.values
  rw [LedgerCall.perform, hremoved]
  dsimp only
  unfold TrackedMemory.revive
  cases hblock : removed.block with
  | none =>
    rw [hblock] at hperm
    exact h.of_perm rfl rfl rfl hperm
  | some b =>
    rw [hblock] at hperm
    exact h.of_perm rfl rfl rfl (hperm.trans
      ((AddressMap.values_insert_perm hfresh).symm.append_right _))

theorem deaccount (h : s.Accounted) (i : Nat) : ((LedgerCall.deaccount i).perform s).Accounted := by
  rw [LedgerCall.perform]
  cases hremoved : s.pending[i]? with
  | none => exact h
  | some removed =>
    have hperm := pending_perm hremoved s.tracked.ledger.live.values
    dsimp only
    unfold Ledger.deaccount
    cases hblock : removed.block with
    | none =>
      rw [hblock] at hperm
      exact h.of_perm rfl rfl rfl hperm
    | some b =>
      rw [hblock] at hperm
      exact h.of_discharge rfl rfl rfl hperm

/-- Each call keeps the account. -/
theorem perform (h : s.Accounted) (hproper : call.Proper s) : (call.perform s).Accounted := by
  cases call with
  | record outer n c origin => exact h.record hproper
  | free inner => exact h.free inner
  | markDead inner c => exact h.markDead inner c
  | revive i => exact h.revive hproper
  | deaccount i => exact h.deaccount i
  | overwrite m => exact h.of_perm rfl rfl rfl (List.Perm.refl _)

theorem run (h : s.Accounted) (hproper : LedgerCall.ProperRun calls s) :
    (LedgerCall.run calls s).Accounted := by
  induction calls generalizing s with
  | nil => exact h
  | cons call calls ih => exact ih (h.perform hproper.1) hproper.2

/-- A recorded block is live with the record that was asked for. -/
theorem get?_record (h : s.Accounted) (hproper : (LedgerCall.record outer n c origin).Proper s) :
    ∃ b : LiveBlock, b.size = n ∧ b.category = c ∧ b.origin = s.tracked.ledger.originOf origin ∧
      ((LedgerCall.record outer n c origin).perform s).tracked.ledger.live.get? (innerOf outer) =
        some b := by
  obtain ⟨-, p, hreturns⟩ := hproper
  obtain ⟨summary, sites, ⟨marker, hstate, -⟩ | ⟨e, -, hresult⟩⟩ :=
    TrackedMemory.recordMalloc_cases h.enabled outer n c origin
  · refine ⟨⟨n, c, s.tracked.ledger.originOf origin, marker⟩, rfl, rfl, rfl, ?_⟩
    rw [LedgerCall.perform, hstate]
    exact (AddressMap.get?_insert ..).trans (if_pos rfl)
  · rw [hresult] at hreturns
    cases hreturns

/-- A block that a call does not take from the live table keeps its record. -/
theorem get?_perform (h : s.Accounted) (hproper : call.Proper s)
    (hlive : s.tracked.ledger.live.get? a = some b) (hkeeps : ¬ call.Removes a) :
    (call.perform s).tracked.ledger.live.get? a = some b := by
  have ne_of_fresh {k : UInt64} (hfresh : s.tracked.ledger.live.get? k = none) : k ≠ a := by
    rintro rfl
    rw [hlive] at hfresh
    cases hfresh
  cases call with
  | record outer n c origin =>
    rw [LedgerCall.perform]
    rcases TrackedMemory.live_recordMalloc h.enabled outer n c origin with hsame | ⟨b', -, hinsert⟩
    · rw [hsame, hlive]
    · rw [hinsert, AddressMap.get?_insert, if_neg (ne_of_fresh hproper.1), hlive]
  | free inner =>
    rw [LedgerCall.perform, TrackedMemory.live_recordFree h.enabled, AddressMap.get?_erase]
    exact (if_neg hkeeps).trans hlive
  | markDead inner c =>
    rw [LedgerCall.perform]
    dsimp only
    rw [TrackedMemory.live_markDeadForRealloc h.enabled, AddressMap.get?_erase]
    exact (if_neg hkeeps).trans hlive
  | revive i =>
    obtain ⟨removed, hremoved, hfresh⟩ := hproper
    rw [LedgerCall.perform, hremoved]
    dsimp only
    unfold TrackedMemory.revive
    cases removed.block with
    | none => exact hlive
    | some b' =>
      show (s.tracked.ledger.live.insert removed.inner b').get? a = some b
      rw [AddressMap.get?_insert, if_neg (ne_of_fresh hfresh), hlive]
  | deaccount i =>
    rw [LedgerCall.perform]
    cases s.pending[i]? with
    | none => exact hlive
    | some removed =>
      dsimp only
      unfold Ledger.deaccount
      cases removed.block <;> exact hlive
  | overwrite m => exact hlive

theorem get?_run (h : s.Accounted) (hproper : LedgerCall.ProperRun calls s)
    (hlive : s.tracked.ledger.live.get? a = some b) (hkeeps : ∀ call ∈ calls, ¬ call.Removes a) :
    (LedgerCall.run calls s).tracked.ledger.live.get? a = some b := by
  induction calls generalizing s with
  | nil => exact hlive
  | cons call calls ih =>
    exact ih (h.perform hproper.1) hproper.2
      (h.get?_perform hproper.1 hlive (hkeeps call List.mem_cons_self))
      fun call' hcall' => hkeeps call' (List.mem_cons_of_mem call hcall')

end Accounted

/-! ## From a fresh ledger -/

/-- A ledger with nothing in it. -/
def create (config : MemoryConfig) (policy : CorruptionPolicy) (memory : Memory) : Resizing :=
  ⟨⟨{ config, policy }, memory⟩, []⟩

theorem accounted_create {config : MemoryConfig} (htracking : config.tracking.enabled = true)
    (policy : CorruptionPolicy) (memory : Memory) : (create config policy memory).Accounted where
  enabled := htracking
  tallies := ⟨MallocSummary.tallies_empty, fun _ => SiteTable.tallies_empty⟩
  marked _ := Nat.two_pow_pos 32

/-- The calls on a ledger may come in any order, and any number of blocks may be pending: after
each call the counters of each category, of all blocks and, at the level of call sites, of each
requester say how many blocks are live or pending and how long they are together. A recorded block
keeps its record until a call takes that very block away; what becomes of a block that was pending
at its address does not matter. And a fresh block is recorded unless a counter is at its end. -/
theorem counters_tally_pending {config : MemoryConfig} (htracking : config.tracking.enabled = true)
    (policy : CorruptionPolicy) (memory : Memory) (calls : List LedgerCall)
    (hproper : LedgerCall.ProperRun calls (create config policy memory)) :
    let after (calls : List LedgerCall) : Resizing :=
      LedgerCall.run calls (create config policy memory)
    (∀ before rest, calls = before ++ rest →
      (after before).tracked.ledger.Tallies (after before).counted) ∧
    (∀ before outer n c origin rest, calls = before ++ .record outer n c origin :: rest →
      ∃ b : LiveBlock, b.size = n ∧ b.category = c ∧
        b.origin = (after before).tracked.ledger.originOf origin ∧
        ∀ between rest', rest = between ++ rest' →
          (∀ call ∈ between, ¬ call.Removes (innerOf outer)) →
          (after (before ++ .record outer n c origin :: between)).tracked.ledger.live.get?
            (innerOf outer) = some b) ∧
    ∀ before rest, calls = before ++ rest → ∀ outer n c origin,
      LiveBlock.Room (after before).counted n →
      ((after before).tracked.ledger.level = .detail →
        (after before).tracked.ledger.sites.entries.length + 1 < 2 ^ 32) →
      ((TrackedMemory.recordMalloc outer n c origin).run (after before).tracked).result =
        .ok (innerOf outer) := by
  intro after
  have haccounted {before rest : List LedgerCall} (hcalls : calls = before ++ rest) :
      (after before).Accounted ∧ LedgerCall.ProperRun rest (after before) := by
    rw [hcalls] at hproper
    obtain ⟨hbefore, hrest⟩ := LedgerCall.properRun_append.1 hproper
    exact ⟨(accounted_create htracking policy memory).run hbefore, hrest⟩
  refine ⟨fun before rest hcalls => (haccounted hcalls).1.tallies, ?_, ?_⟩
  · intro before outer n c origin rest hcalls
    obtain ⟨hbefore, hcall, hrest⟩ := haccounted hcalls
    obtain ⟨b, hsize, hcategory, horigin, hlive⟩ := hbefore.get?_record hcall
    refine ⟨b, hsize, hcategory, horigin, fun between rest' hrest' hkeeps => ?_⟩
    rw [hrest'] at hrest
    have hbetween := (LedgerCall.properRun_append.1 hrest).1
    show (LedgerCall.run _ (create config policy memory)).tracked.ledger.live.get? _ = _
    rw [LedgerCall.run_append]
    exact (hbefore.perform hcall).get?_run hbetween hlive hkeeps
  · intro before rest hcalls outer n c origin hroom hsites
    have hbefore := (haccounted hcalls).1
    have hfits := hbefore.tallies.fits hroom c ((after before).tracked.ledger.originOf origin)
    have hmarker : (after before).tracked.ledger.HasMarker c
        ((after before).tracked.ledger.originOf origin) := fun hdetail =>
      Nat.lt_of_le_of_lt (Nat.succ_le_succ (SiteTable.place_le _ _)) (hsites hdetail)
    exact (TrackedMemory.recordMalloc_of_fits hbefore.enabled hfits hmarker).2

/-- A block is resized while another is recorded where it was, and moves; a second one is resized
and stays. -/
def reusedRun : List LedgerCall :=
  [.record 0x1000 100 .compiler ⟨⟨"src/jit.rs", 7, 9⟩, .empty⟩,
    .record 0x5000 40 .gc ⟨⟨"src/gc.rs", 1, 2⟩, .empty⟩, .markDead 0x1010 .compiler,
    .markDead 0x5010 .gc, .record 0x1000 200 .code ⟨⟨"src/code.rs", 3, 4⟩, .empty⟩,
    .record 0x9000 300 .compiler ⟨⟨"src/jit.rs", 8, 9⟩, .empty⟩, .deaccount 0, .revive 0]

theorem counters_tally_pending_reusedRun :
    TrackingLevel.detail.enabled = true ∧
      LedgerCall.ProperRun reusedRun (create { tracking := .detail } .abort Memory.zero) ∧
      (LedgerCall.run reusedRun (create { tracking := .detail } .abort Memory.zero)).tracked.ledger.Tallies
        (LedgerCall.run reusedRun (create { tracking := .detail } .abort Memory.zero)).counted := by
  have htracking : TrackingLevel.detail.enabled = true := rfl
  have hproper : LedgerCall.ProperRun reusedRun
      (create { tracking := .detail } .abort Memory.zero) :=
    ⟨⟨rfl, _, rfl⟩, ⟨rfl, _, rfl⟩, trivial, trivial, ⟨rfl, _, rfl⟩, ⟨rfl, _, rfl⟩, Nat.two_pos,
      ⟨_, rfl, rfl⟩, trivial⟩
  exact ⟨htracking, hproper, (counters_tally_pending htracking .abort Memory.zero reusedRun
    hproper).1 reusedRun [] (List.append_nil _).symm⟩

end Resizing

end HostServices
