import HostServices.Proofs.Heap.Balance
import HostServices.Proofs.Heap.Refusal

/-!
# The summary of a heap

The counters of each category and of all blocks stand for the live blocks after every call, however
many requesters there are (`Heap.Reachable.counted`). At the level of call sites a request may stop
because its requester has no marker, but then it is neither counted nor recorded
(`Secured.counted_recordMalloc`); a resize that stops so has taken the old block out of both before.
-/

namespace HostServices

namespace Ledger

variable {l : Ledger} {p : UInt64} {b : LiveBlock}

/-- The counters of each category and of all blocks stand for the live ones. -/
def Counted (l : Ledger) : Prop :=
  l.summary.Tallies l.live.values

theorem counted_fresh (config : MemoryConfig) (policy : CorruptionPolicy) :
    Counted { config, policy } :=
  MallocSummary.tallies_empty

/-- A live block is covered by its counters. -/
theorem Counted.covers (h : l.Counted) (hlive : l.live.get? p = some b) :
    l.summary.Covers b.category b.size :=
  MallocSummary.Tallies.covers h ((AddressMap.values_erase_perm hlive).mem_iff.2 List.mem_cons_self)

theorem Counted.retire (h : l.Counted) (hlive : l.live.get? p = some b) : (l.retire p b).Counted :=
  (MallocSummary.Tallies.perm h (AddressMap.values_erase_perm hlive)).deallocate

end Ledger

/-- A fresh host block has no record, and one for it fits into the summary. -/
theorem Secured.fits_summary {B : Blocks} {early : EarlyBlocks} {l : Ledger}
    {outer outerSize : UInt64} {b : LiveBlock} (hs : Secured B early l.live) (hcounted : l.Counted)
    (houter : B outer = none) (hB : (B.take outer outerSize).Apart)
    (hlength : outerSize.toNat = b.size.toNat + 18) :
    l.live.get? (BlockHeader.innerOf outer) = none ∧ l.summary.Fits b.category b.size :=
  (hs.room houter hB hlength).imp_right fun hroom =>
    MallocSummary.Tallies.fits hcounted hroom b.category

/-- A fresh host block is counted and recorded, or neither. -/
theorem Secured.counted_recordMalloc {B : Blocks} {early : EarlyBlocks} {t : TrackedMemory}
    {outer outerSize n : UInt64} (henabled : t.ledger.enabled = true)
    (hs : Secured B early t.ledger.live) (hcounted : t.ledger.Counted) (houter : B outer = none)
    (hB : (B.take outer outerSize).Apart) (hsize : Word.add? n t.ledger.overhead = some outerSize)
    (c : Category) (origin : Origin) :
    ((TrackedMemory.recordMalloc outer n c origin).run t).state.ledger.Counted := by
  obtain ⟨hfresh, hfits⟩ := hs.fits_summary (b := ⟨n, c, origin, 0⟩) hcounted houter hB
    (Ledger.toNat_of_overhead henabled hsize)
  obtain ⟨sites, ⟨marker, hstate, -⟩ | ⟨e, hstate, -⟩⟩ :=
    TrackedMemory.recordMalloc_of_summary henabled hfits outer origin
  · rw [hstate]
    have hcharged := MallocSummary.Tallies.charge (b := ⟨n, c, t.ledger.originOf origin, marker⟩)
      hcounted hfits
    exact hcharged.perm (AddressMap.values_insert_perm hfresh).symm
  · rw [hstate]
    exact hcounted

section change

variable {σ : Type} [HostAllocator σ] {R : HostContract σ} {K : Set SiteKey}

theorem LedgerHeap.Change.counted {h h' : LedgerHeap σ} (hh : h.Change K h')
    (henabled : h.ledger.enabled = true) (hvalid : R.Valid h.early.machine.host)
    (hs : Secured (R.owned h.early.machine.host) h.early.blocks h.ledger.live)
    (hcounted : h.ledger.Counted) : h'.ledger.Counted := by
  cases hh with
  | early => exact hcounted
  | rejected => exact hcounted
  | condemned _ _ hlive => exact hcounted.retire hlive
  | @allocated n outerSize outer c origin m m' _ hK hm hn hsize hlimit hcall =>
    obtain ⟨hvalid', houter, howned⟩ :=
      R.of_malloc hvalid hm (Word.pos_of_add? hsize hn) hcall
    have hB := R.apart hvalid'
    rw [howned] at hB
    exact hs.counted_recordMalloc (t := ⟨h.ledger, m'.memory⟩) henabled hcounted houter hB hsize c
      origin
  | unresized => exact hcounted
  | @resized p n outerSize outer b origin m m' _ found hK hm hlive hn hsize hlimit hcall hfound =>
    obtain ⟨hvalid', houter, howned⟩ :=
      R.of_realloc hvalid hm (hs.live_ne_none hlive) (Word.pos_of_add? hsize hn) hcall
    have hB := R.apart hvalid'
    rw [howned] at hB
    exact (hs.release hlive).counted_recordMalloc (t := ⟨h.ledger.retire p b, m'.memory⟩) henabled
      (hcounted.retire hlive) houter hB hsize b.category origin
  | released _ _ hlive => exact hcounted.retire hlive

namespace Heap

variable {h h' : Heap σ}

/-- If there is a ledger, its summary stands for the live blocks. -/
def Counted (h : Heap σ) : Prop :=
  ∀ l, h.ledger? = some l → l.Counted

omit [HostAllocator σ] in
theorem counted_early (e : EarlyHeap σ) : Counted (.early e) :=
  fun _ hl => absurd hl (Option.some_ne_none _).symm

theorem Counted.change (hcounted : h.Counted) (hs : h.Sound R) (hh : h.Change K h') :
    h'.Counted := by
  intro l' hl'
  cases hh with
  | early => cases hl'
  | granted => cases hl'
  | installed =>
    obtain rfl := Option.some.inj hl'
    exact Ledger.counted_fresh _ _
  | ready hh =>
    obtain rfl := Option.some.inj hl'
    exact hh.counted (hs.enabled _ rfl) hs.valid hs.secured (hcounted _ rfl)

theorem Counted.run (hcounted : h.Counted) (hs : h.Sound R) {calls : List HeapCall}
    (hproper : HeapCall.ProperRun calls h) : (HeapCall.run calls h).Counted := by
  induction calls generalizing h with
  | nil => exact hcounted
  | cons call calls ih =>
    obtain ⟨hcall, hcalls⟩ := hproper
    exact ih (hcounted.change hs (call.perform_change hs.enabled hcall)) (hs.perform hcall) hcalls

/-- Whatever a heap was asked for, its summary stands for its live blocks. -/
theorem Reachable.counted (hreach : h.Reachable R) : h.Counted := by
  obtain ⟨m, calls, hvalid, hproper, rfl⟩ := hreach
  exact (counted_early _).run (sound_create hvalid) hproper

end Heap

end change

end HostServices
