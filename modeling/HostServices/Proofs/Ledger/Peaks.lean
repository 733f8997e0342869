import HostServices.Proofs.Ledger.Pending
import Mathlib.Order.Bounds.Basic

/-!
# Peaks of the counters

A call charges a counter, discharges it, or does one after the other. Each of these leaves the peaks
where they were, or raises them to the numbers that it leaves (`Counter.Raised`); what a discharge
leaves is never the highest. So the peaks of a run are the highest numbers that the counter had after
any of its calls (`Peaks.of_raises`).
-/

namespace HostServices

/-! ## Counters -/

namespace Counter

variable {c c' : Counter} {n k : UInt64} {past : Set Counter}

/-- The peaks are not below the numbers. -/
structure BelowPeaks (c : Counter) : Prop where
  count : c.count.toNat ≤ c.peakCount.toNat
  bytes : c.bytes.toNat ≤ c.peakBytes.toNat

/-- The peaks are those of `c`, or the numbers of `c'` where these are higher. -/
structure Raised (c c' : Counter) : Prop where
  count : c'.peakCount.toNat = max c.peakCount.toNat c'.count.toNat
  bytes : c'.peakBytes.toNat = max c.peakBytes.toNat c'.bytes.toNat

theorem BelowPeaks.raised (h : c.BelowPeaks) : c.Raised c where
  count := (max_eq_left h.count).symm
  bytes := (max_eq_left h.bytes).symm

theorem raised_charge (c : Counter) (n : UInt64) : c.Raised (c.charge n) where
  count := Word.toNat_max ..
  bytes := Word.toNat_max ..

/-- The numbers go down when an allocation is discharged that is covered. -/
theorem BelowPeaks.deallocate (h : c.BelowPeaks) (hn : c.Covers n) : (c.deallocate n).BelowPeaks where
  count := by
    show (c.count - 1).toNat ≤ c.peakCount.toNat
    rw [Word.toNat_sub_of_le (show (1 : UInt64).toNat ≤ _ from hn.count)]
    exact (Nat.sub_le ..).trans h.count
  bytes := by
    show (c.bytes - n).toNat ≤ c.peakBytes.toNat
    rw [Word.toNat_sub_of_le hn.bytes]
    exact (Nat.sub_le ..).trans h.bytes

/-- A discharge does not touch the peaks. -/
theorem Raised.of_deallocate (h : (c.deallocate n).Raised c') : c.Raised c' :=
  ⟨h.count, h.bytes⟩

theorem Raised.belowPeaks (h : c.Raised c') : c'.BelowPeaks where
  count := h.count ▸ le_max_right ..
  bytes := h.bytes ▸ le_max_right ..

/-- The peaks are the highest numbers of some counters. -/
structure HighWater (past : Set Counter) (c : Counter) : Prop where
  count : IsGreatest ((·.count.toNat) '' past) c.peakCount.toNat
  bytes : IsGreatest ((·.bytes.toNat) '' past) c.peakBytes.toNat

theorem highWater_empty : HighWater {{}} {} where
  count := by
    rw [Set.image_singleton]
    exact isGreatest_singleton
  bytes := by
    rw [Set.image_singleton]
    exact isGreatest_singleton

theorem HighWater.belowPeaks (h : HighWater past c) (hc : c ∈ past) : c.BelowPeaks where
  count := h.count.2 (Set.mem_image_of_mem _ hc)
  bytes := h.bytes.2 (Set.mem_image_of_mem _ hc)

theorem HighWater.insert (h : HighWater past c) (hraised : c.Raised c') :
    HighWater (insert c' past) c' where
  count := by
    rw [Set.image_insert_eq, hraised.count, max_comm]
    exact h.count.insert _
  bytes := by
    rw [Set.image_insert_eq, hraised.bytes, max_comm]
    exact h.bytes.insert _

end Counter

/-! ## Summaries -/

namespace MallocSummary

variable {s s' : MallocSummary} {c : Category} {n k : UInt64} {which : Option Category}

/-- The counter of a category, or of all blocks. -/
def counter (s : MallocSummary) : Option Category → Counter
  | none => s.total
  | some c => s.category c

theorem counter_charge (s : MallocSummary) (c : Category) (n : UInt64) (which : Option Category) :
    (s.charge c n).counter which =
      if which = none ∨ which = some c then (s.counter which).charge n else s.counter which := by
  cases which with
  | none => rfl
  | some d =>
    show (if d = c then (s.category c).charge n else s.category d) = _
    by_cases hd : d = c
    · simp [hd, counter]
    · simp [hd, counter]

theorem counter_deallocate (s : MallocSummary) (c : Category) (n : UInt64)
    (which : Option Category) :
    (s.deallocate c n).counter which =
      if which = none ∨ which = some c then (s.counter which).deallocate n else s.counter which := by
  cases which with
  | none => rfl
  | some d =>
    show (if d = c then (s.category c).deallocate n else s.category d) = _
    by_cases hd : d = c
    · simp [hd, counter]
    · simp [hd, counter]

theorem Covers.counter (h : s.Covers c n) (hwhich : which = none ∨ which = some c) :
    (s.counter which).Covers n := by
  rcases hwhich with rfl | rfl
  · exact h.total
  · exact h.category

theorem Fits.counter (h : s.Fits c n) (hwhich : which = none ∨ which = some c) :
    (s.counter which).Fits n := by
  rcases hwhich with rfl | rfl
  · exact h.total
  · exact h.category

/-- No peak is below its number. -/
def BelowPeaks (s : MallocSummary) : Prop :=
  ∀ which, (s.counter which).BelowPeaks

/-- Each peak is kept, or raised to the number of `s'`. -/
def Raises (s s' : MallocSummary) : Prop :=
  ∀ which, (s.counter which).Raised (s'.counter which)

theorem BelowPeaks.raises (h : s.BelowPeaks) : s.Raises s :=
  fun which => (h which).raised

theorem BelowPeaks.raises_charge (h : s.BelowPeaks) (c : Category) (n : UInt64) :
    s.Raises (s.charge c n) := by
  intro which
  rw [counter_charge]
  split
  · exact Counter.raised_charge ..
  · exact (h which).raised

/-- An allocation that may have been left out raises no peak but to what it leaves. -/
theorem BelowPeaks.raises_of_charged (h : s.BelowPeaks) (hs : s' = s ∨ s' = s.charge c n) :
    s.Raises s' := by
  rcases hs with rfl | rfl
  · exact h.raises
  · exact h.raises_charge c n

theorem BelowPeaks.deallocate (h : s.BelowPeaks) (hk : s.Covers c k) : (s.deallocate c k).BelowPeaks := by
  intro which
  rw [counter_deallocate]
  split
  · next hwhich => exact (h which).deallocate (hk.counter hwhich)
  · exact h which

/-- A discharge raises nothing. -/
theorem Raises.of_deallocate (h : (s.deallocate c k).Raises s') : s.Raises s' := by
  intro which
  have hraised := h which
  rw [counter_deallocate] at hraised
  split at hraised
  · exact hraised.of_deallocate
  · exact hraised

theorem BelowPeaks.raises_deallocate (h : s.BelowPeaks) (hk : s.Covers c k) :
    s.Raises (s.deallocate c k) :=
  (h.deallocate hk).raises.of_deallocate

/-- No peak is other than in `s`. -/
def SamePeaks (s s' : MallocSummary) : Prop :=
  ∀ which, (s'.counter which).peakCount = (s.counter which).peakCount ∧
    (s'.counter which).peakBytes = (s.counter which).peakBytes

theorem samePeaks_refl (s : MallocSummary) : s.SamePeaks s :=
  fun _ => ⟨rfl, rfl⟩

theorem samePeaks_deallocate (s : MallocSummary) (c : Category) (k : UInt64) :
    s.SamePeaks (s.deallocate c k) := by
  intro which
  rw [counter_deallocate]
  split <;> exact ⟨rfl, rfl⟩

/-- A block of `n` bytes came for one of `k` bytes, if any peak was raised: then it is one of bytes, and
what it was raised to is the number before, less the `k` bytes and with the `n` bytes. -/
def Exchange (s s' : MallocSummary) (c : Category) (k n : UInt64) : Prop :=
  ∀ which, (s'.counter which).peakCount = (s.counter which).peakCount ∧
    ((s.counter which).peakBytes.toNat < (s'.counter which).peakBytes.toNat →
      (which = none ∨ which = some c) ∧
        (s'.counter which).peakBytes.toNat + k.toNat = (s.counter which).bytes.toNat + n.toNat)

theorem BelowPeaks.exchange (h : s.BelowPeaks) (hk : s.Covers c k) (hn : (s.deallocate c k).Fits c n) :
    s.Exchange ((s.deallocate c k).charge c n) c k n := by
  intro which
  rw [counter_charge, counter_deallocate]
  by_cases hwhich : which = none ∨ which = some c
  · rw [if_pos hwhich, if_pos hwhich]
    have hfits := hn.counter hwhich
    rw [counter_deallocate, if_pos hwhich] at hfits
    obtain ⟨hcount, hbytes⟩ := Counter.charge_deallocate (hk.counter hwhich) hfits
    obtain ⟨hpeakCount, hpeakBytes⟩ :=
      (Counter.raised_charge ((s.counter which).deallocate k) n).of_deallocate
    rw [hcount, max_eq_left (h which).count] at hpeakCount
    refine ⟨UInt64.toNat_inj.1 hpeakCount, fun hraised => ⟨hwhich, ?_⟩⟩
    rw [hpeakBytes] at hraised ⊢
    rw [max_eq_right_of_lt ((lt_max_iff.1 hraised).resolve_left (lt_irrefl _)), hbytes]
  · rw [if_neg hwhich, if_neg hwhich]
    exact ⟨rfl, fun hraised => absurd hraised (lt_irrefl _)⟩

end MallocSummary

/-! ## Runs -/

open MallocSummary (BelowPeaks Raises)

/-- What a call does to a summary: there is still none, or a new one, or its peaks are raised. -/
inductive MallocSummary.Advance : Option MallocSummary → Option MallocSummary → Prop
  | absent : Advance none none
  | fresh : Advance none (some {})
  | raised {s s' : MallocSummary} (h : s.BelowPeaks → s.Raises s') : Advance (some s) (some s')

section runs

variable {C : Type} {view : List C → Option MallocSummary} {calls before : List C} {call : C}
  {s s' : MallocSummary} {which : Option Category}

/-- The values of a counter in the course of some calls. `view` is the summary after the first ones. -/
def passed (view : List C → Option MallocSummary) (calls : List C) (which : Option Category) :
    Set Counter :=
  {k | ∃ first s, first <+: calls ∧ view first = some s ∧ s.counter which = k}

/-- The peaks in the course of some calls: at any point each is the highest number that its counter
had up to then, so it is not below the number of the moment, and it never goes down. -/
structure Peaks (view : List C → Option MallocSummary) (calls : List C) : Prop where
  highest {before : List C} {s : MallocSummary} : before <+: calls → view before = some s →
    ∀ which, Counter.HighWater (passed view before which) (s.counter which)
  current {before : List C} {s : MallocSummary} : before <+: calls → view before = some s →
    ∀ which, (s.counter which).count ≤ (s.counter which).peakCount ∧
      (s.counter which).bytes ≤ (s.counter which).peakBytes
  growing {before : List C} {call : C} {s s' : MallocSummary} : before ++ [call] <+: calls →
    view before = some s → view (before ++ [call]) = some s' →
    ∀ which, (s.counter which).peakCount ≤ (s'.counter which).peakCount ∧
      (s.counter which).peakBytes ≤ (s'.counter which).peakBytes

theorem mem_passed (h : view before = some s) : s.counter which ∈ passed view before which :=
  ⟨before, s, List.prefix_refl _, h, rfl⟩

theorem passed_concat (h : view (before ++ [call]) = some s) :
    passed view (before ++ [call]) which = insert (s.counter which) (passed view before which) := by
  ext k
  simp only [passed, Set.mem_ofPred_eq, Set.mem_insert_iff, List.prefix_concat_iff]
  constructor
  · rintro ⟨first, s', rfl | hfirst, hs', rfl⟩
    · exact .inl (Option.some.inj (hs'.symm.trans h) ▸ rfl)
    · exact .inr ⟨first, s', hfirst, hs', rfl⟩
  · rintro (rfl | ⟨first, s', hfirst, hs', rfl⟩)
    · exact ⟨_, s, .inl rfl, h, rfl⟩
    · exact ⟨first, s', .inr hfirst, hs', rfl⟩

/-- The counters of the first summary have had no value before. -/
theorem highWater_fresh (hnone : ∀ first, first <+: before → first ≠ before → view first = none)
    (h : view before = some {}) (which : Option Category) :
    Counter.HighWater (passed view before which) (MallocSummary.counter {} which) := by
  have hempty : MallocSummary.counter {} which = {} := by
    cases which <;> rfl
  have hpassed : passed view before which = {{}} := by
    refine Set.eq_singleton_iff_unique_mem.2 ⟨hempty ▸ mem_passed h, ?_⟩
    rintro k ⟨first, s, hfirst, hs, rfl⟩
    by_cases hsame : first = before
    · rw [hsame, h] at hs
      exact Option.some.inj hs ▸ hempty
    · rw [hnone first hfirst hsame] at hs
      cases hs
  rw [hpassed, hempty]
  exact Counter.highWater_empty

/-- After any of the calls there has been no summary yet, or its peaks are the highest numbers. -/
theorem highWater_of_advance (hstart : MallocSummary.Advance none (view []))
    (hstep : ∀ before call, before ++ [call] <+: calls →
      MallocSummary.Advance (view before) (view (before ++ [call])))
    (hbefore : before <+: calls) :
    (∀ first, first <+: before → view first = none) ∨
      ∃ s, view before = some s ∧
        ∀ which, Counter.HighWater (passed view before which) (s.counter which) := by
  induction before using List.reverseRecOn with
  | nil =>
    cases hview : view [] with
    | none =>
      refine .inl fun first hfirst => ?_
      rw [List.prefix_nil.1 hfirst, hview]
    | some s =>
      rw [hview] at hstart
      cases hstart
      exact .inr ⟨{}, rfl, highWater_fresh
        (fun first hfirst hne => absurd (List.prefix_nil.1 hfirst) hne) hview⟩
  | append_singleton before call ih =>
    have hadvance := hstep before call hbefore
    rcases ih ((List.prefix_append _ _).trans hbefore) with hnone | ⟨s, hs, hpeaks⟩
    · rw [hnone before (List.prefix_refl _)] at hadvance
      cases hview : view (before ++ [call]) with
      | none =>
        refine .inl fun first hfirst => ?_
        rcases List.prefix_concat_iff.1 hfirst with rfl | hfirst
        · exact hview
        · exact hnone first hfirst
      | some s =>
        rw [hview] at hadvance
        cases hadvance
        refine .inr ⟨{}, rfl, highWater_fresh (fun first hfirst hne => ?_) hview⟩
        exact hnone first ((List.prefix_concat_iff.1 hfirst).resolve_left hne)
    · rw [hs] at hadvance
      cases hview : view (before ++ [call]) with
      | none =>
        rw [hview] at hadvance
        cases hadvance
      | some s' =>
        rw [hview] at hadvance
        obtain hraises := match hadvance with | .raised h => h
        have hbelow : s.BelowPeaks := fun which => (hpeaks which).belowPeaks (mem_passed hs)
        refine .inr ⟨s', rfl, fun which => ?_⟩
        rw [passed_concat hview]
        exact (hpeaks which).insert (hraises hbelow which)

/-- Where each call advances the summary, its peaks are the highest numbers. -/
theorem Peaks.of_advance (hstart : MallocSummary.Advance none (view []))
    (hstep : ∀ before call, before ++ [call] <+: calls →
      MallocSummary.Advance (view before) (view (before ++ [call]))) : Peaks view calls := by
  have hhighest {before : List C} {s : MallocSummary} (hbefore : before <+: calls)
      (hs : view before = some s) (which : Option Category) :
      Counter.HighWater (passed view before which) (s.counter which) := by
    rcases highWater_of_advance hstart hstep hbefore with hnone | ⟨s', hs', hpeaks⟩
    · rw [hnone before (List.prefix_refl _)] at hs
      cases hs
    · exact Option.some.inj (hs'.symm.trans hs) ▸ hpeaks which
  refine ⟨hhighest, fun hbefore hs which => ?_, fun {before call s s'} hcall hs hs' which => ?_⟩
  · have hbelow := (hhighest hbefore hs which).belowPeaks (mem_passed hs)
    exact ⟨UInt64.le_iff_toNat_le.2 hbelow.count, UInt64.le_iff_toNat_le.2 hbelow.bytes⟩
  · have hpeaks := hhighest ((List.prefix_append _ _).trans hcall) hs which
    have hpeaks' := hhighest hcall hs' which
    have hpassed : passed view before which ⊆ passed view (before ++ [call]) which := by
      rw [passed_concat hs']
      exact Set.subset_insert _ _
    rw [UInt64.le_iff_toNat_le, UInt64.le_iff_toNat_le]
    exact ⟨hpeaks.count.mono hpeaks'.count (Set.image_mono hpassed),
      hpeaks.bytes.mono hpeaks'.bytes (Set.image_mono hpassed)⟩

theorem Peaks.belowPeaks (h : Peaks view calls) (hbefore : before <+: calls) (hs : view before = some s) :
    s.BelowPeaks :=
  fun which => (h.highest hbefore hs which).belowPeaks (mem_passed hs)

end runs

/-! ## Runs of a ledger -/

namespace Resizing

variable {s : Resizing} {call : LedgerCall} {calls : List LedgerCall}

/-- The summary of a ledger in use. -/
def summary (s : Resizing) : MallocSummary :=
  s.tracked.ledger.summary

/-- Without tracking there are neither records nor blocks under way. -/
structure Untracked (s : Resizing) : Prop where
  disabled : s.tracked.ledger.enabled = false
  pending : ∀ removed ∈ s.pending, removed.block = none

/-- Without tracking, a call leaves the ledger as it is. -/
theorem Untracked.perform (h : s.Untracked) (call : LedgerCall) :
    (call.perform s).Untracked ∧ (call.perform s).summary = s.summary := by
  have hpending {i : ℕ} {removed : Removed} (hi : s.pending[i]? = some removed) :
      removed.block = none := h.pending removed (List.mem_of_getElem? hi)
  have herase (i : ℕ) : ∀ removed ∈ s.pending.eraseIdx i, removed.block = none :=
    fun removed hremoved => h.pending removed (List.mem_of_mem_eraseIdx hremoved)
  cases call with
  | record outer n c origin =>
    rw [LedgerCall.perform, TrackedMemory.recordMalloc_untracked h.disabled]
    exact ⟨h, rfl⟩
  | free inner =>
    rw [LedgerCall.perform, TrackedMemory.recordFree_untracked h.disabled]
    exact ⟨h, rfl⟩
  | markDead inner c =>
    rw [LedgerCall.perform, TrackedMemory.markDeadForRealloc_untracked h.disabled]
    refine ⟨⟨h.disabled, fun removed hremoved => ?_⟩, rfl⟩
    rcases List.mem_append.1 hremoved with hold | hnew
    · exact h.pending removed hold
    · rw [List.mem_singleton.1 hnew]
  | revive i =>
    rw [LedgerCall.perform]
    cases hi : s.pending[i]? with
    | none => exact ⟨h, rfl⟩
    | some removed =>
      dsimp only
      unfold TrackedMemory.revive
      rw [hpending hi]
      exact ⟨⟨h.disabled, herase i⟩, rfl⟩
  | deaccount i =>
    rw [LedgerCall.perform]
    cases hi : s.pending[i]? with
    | none => exact ⟨h, rfl⟩
    | some removed =>
      dsimp only
      unfold Ledger.deaccount
      rw [hpending hi]
      exact ⟨⟨h.disabled, herase i⟩, rfl⟩
  | overwrite m => exact ⟨⟨h.disabled, h.pending⟩, rfl⟩

namespace Accounted

variable {outer n : UInt64} {c : Category} {origin : Origin} {b : LiveBlock} {removed : Removed}
  {i : Nat}

theorem covers (h : s.Accounted) (hb : b ∈ s.counted) : s.summary.Covers b.category b.size :=
  h.tallies.summary.covers hb

theorem covers_live {inner : UInt64} (h : s.Accounted)
    (hlive : s.tracked.ledger.live.get? inner = some b) :
    s.summary.Covers b.category b.size :=
  h.covers (List.mem_append_left _
    ((AddressMap.values_erase_perm hlive).mem_iff.2 List.mem_cons_self))

theorem covers_pending (h : s.Accounted) (hi : s.pending[i]? = some removed)
    (hblock : removed.block = some b) : s.summary.Covers b.category b.size :=
  h.covers (List.mem_append_right _
    (List.mem_filterMap.2 ⟨removed, List.mem_of_getElem? hi, hblock⟩))

/-- A recorded block is charged. -/
theorem summary_record (h : s.Accounted) (hproper : (LedgerCall.record outer n c origin).Proper s) :
    s.summary.Fits c n ∧
      ((LedgerCall.record outer n c origin).perform s).summary = s.summary.charge c n := by
  obtain ⟨-, p, hreturns⟩ := hproper
  obtain ⟨hfits, hmarker⟩ := TrackedMemory.fits_of_recordMalloc h.enabled h.marked hreturns
  refine ⟨hfits.summary, ?_⟩
  rw [LedgerCall.perform, summary, (TrackedMemory.recordMalloc_of_fits h.enabled hfits hmarker).1]
  exact Ledger.summary_charge

theorem summary_deaccount (hi : s.pending[i]? = some removed) (hblock : removed.block = some b) :
    ((LedgerCall.deaccount i).perform s).summary = s.summary.deallocate b.category b.size := by
  rw [LedgerCall.perform, hi]
  dsimp only [summary]
  unfold Ledger.deaccount
  rw [hblock]
  rfl

/-- No call raises a peak but to what it leaves. -/
theorem raises_perform (h : s.Accounted) (hproper : call.Proper s) (hbelow : s.summary.BelowPeaks) :
    s.summary.Raises (call.perform s).summary := by
  cases call with
  | record outer n c origin =>
    rw [(h.summary_record hproper).2]
    exact hbelow.raises_charge c n
  | free inner =>
    rw [LedgerCall.perform]
    cases hlive : s.tracked.ledger.live.get? inner with
    | none =>
      rw [TrackedMemory.recordFree_notLive h.enabled hlive]
      exact hbelow.raises
    | some b =>
      cases hkind : Ledger.inspectBlock s.tracked.memory inner b with
      | error kind =>
        rw [TrackedMemory.recordFree_damaged h.enabled hlive hkind]
        exact hbelow.raises_deallocate (h.covers_live hlive)
      | ok u =>
        rw [(TrackedMemory.recordFree_intact h.enabled hlive hkind).1]
        exact hbelow.raises_deallocate (h.covers_live hlive)
  | markDead inner c =>
    rw [LedgerCall.perform]
    cases hlive : s.tracked.ledger.live.get? inner with
    | none =>
      rw [TrackedMemory.markDeadForRealloc_notLive h.enabled hlive]
      exact hbelow.raises
    | some b =>
      cases hkind : Ledger.inspectForResize s.tracked.memory inner b c with
      | error kind =>
        rw [TrackedMemory.markDeadForRealloc_damaged h.enabled hlive hkind]
        exact hbelow.raises_deallocate (h.covers_live hlive)
      | ok u =>
        rw [TrackedMemory.markDeadForRealloc_intact h.enabled hlive hkind]
        exact hbelow.raises
  | revive i =>
    obtain ⟨removed, hi, -⟩ := hproper
    rw [LedgerCall.perform, hi]
    dsimp only
    unfold TrackedMemory.revive
    cases removed.block <;> exact hbelow.raises
  | deaccount i =>
    cases hi : s.pending[i]? with
    | none =>
      rw [LedgerCall.perform, hi]
      exact hbelow.raises
    | some removed =>
      cases hblock : removed.block with
      | none =>
        rw [LedgerCall.perform, hi]
        dsimp only
        unfold Ledger.deaccount
        rw [hblock]
        exact hbelow.raises
      | some b =>
        rw [summary_deaccount hi hblock]
        exact hbelow.raises_deallocate (h.covers_pending hi hblock)
  | overwrite m => exact hbelow.raises

end Accounted

/-- Where a run has got to: the counters stand for the blocks, or nothing is tracked. -/
def Steady (s : Resizing) : Prop :=
  s.Accounted ∨ s.Untracked

theorem steady_create (config : MemoryConfig) (policy : CorruptionPolicy) (memory : Memory) :
    (create config policy memory).Steady := by
  cases htracking : config.tracking.enabled with
  | true => exact .inl (accounted_create htracking policy memory)
  | false => exact .inr ⟨htracking, List.forall_mem_nil _⟩

theorem Steady.perform (h : s.Steady) (hproper : call.Proper s) : (call.perform s).Steady :=
  h.imp (·.perform hproper) fun huntracked => (huntracked.perform call).1

theorem Steady.run (h : s.Steady) (hproper : LedgerCall.ProperRun calls s) :
    (LedgerCall.run calls s).Steady := by
  induction calls generalizing s with
  | nil => exact h
  | cons call calls ih => exact ih (h.perform hproper.1) hproper.2

theorem Steady.raises_perform (h : s.Steady) (hproper : call.Proper s)
    (hbelow : s.summary.BelowPeaks) : s.summary.Raises (call.perform s).summary := by
  rcases h with haccounted | huntracked
  · exact haccounted.raises_perform hproper hbelow
  · rw [(huntracked.perform call).2]
    exact hbelow.raises

/-- The peaks of a ledger in the course of calls. -/
theorem peaks {config : MemoryConfig} {policy : CorruptionPolicy} {memory : Memory}
    (hproper : LedgerCall.ProperRun calls (create config policy memory)) :
    Peaks (fun first => some (LedgerCall.run first (create config policy memory)).summary) calls := by
  refine .of_advance .fresh fun before call hcall => .raised fun hbelow => ?_
  obtain ⟨rest, rfl⟩ := hcall
  rw [LedgerCall.properRun_append, LedgerCall.properRun_append] at hproper
  obtain ⟨⟨hbefore, hcall, -⟩, -⟩ := hproper
  rw [LedgerCall.run_append]
  exact ((steady_create config policy memory).run hbefore).raises_perform hcall hbelow

/-- A block is taken out of the counters and another of its category is recorded. -/
theorem Steady.exchange {i : Nat} {removed : Removed} {b : LiveBlock} {outer n : UInt64}
    {origin : Origin} (h : s.Steady) (hbelow : s.summary.BelowPeaks)
    (hproper : LedgerCall.ProperRun [.deaccount i, .record outer n b.category origin] s)
    (hi : s.pending[i]? = some removed) (hblock : removed.block = some b) :
    s.summary.Exchange
      (LedgerCall.run [.deaccount i, .record outer n b.category origin] s).summary
      b.category b.size n := by
  rcases h with haccounted | huntracked
  · obtain ⟨hdeaccount, hrecord, -⟩ := hproper
    obtain ⟨hfits, hsummary⟩ := (haccounted.perform hdeaccount).summary_record hrecord
    rw [Accounted.summary_deaccount hi hblock] at hfits hsummary
    have hexchange := hbelow.exchange (haccounted.covers_pending hi hblock) hfits
    rw [← hsummary] at hexchange
    exact hexchange
  · rw [huntracked.pending removed (List.mem_of_getElem? hi)] at hblock
    cases hblock

end Resizing

end HostServices
