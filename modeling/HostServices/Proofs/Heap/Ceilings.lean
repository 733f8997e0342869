import HostServices.FreshAllocator
import HostServices.Proofs.Heap.Owned
import HostServices.Proofs.Ledger.Ceilings

/-!
# Ceilings on a heap

A heap that got a ledger without blocks keeps every counter with a ceiling at or below it, peaks
included, and counts at least the bytes of its live blocks there (`counted_within_ceilings`). Nothing
is asked of the host, of the pointers that are given or of what is written into memory: a change of
the ledger either charges what has passed its check or charges nothing.
-/

namespace HostServices

variable {σ : Type} [HostAllocator σ] {K : Set SiteKey}

/-- A change keeps all counters under their ceilings. -/
theorem LedgerHeap.Change.capped {h h' : LedgerHeap σ} (hh : h.Change K h')
    (henabled : h.ledger.enabled = true) (hcapped : h.ledger.Capped) : h'.ledger.Capped := by
  cases hh with
  | early => exact hcapped
  | rejected => exact hcapped
  | condemned _ _ hlive => exact hcapped.retire hlive
  | @allocated n outerSize outer c origin m m' _ hK hm hn hsize hlimit hcall =>
    have hroom := Ledger.hasRoom_of_limitCheck henabled hlimit
    exact hcapped.recordMalloc henabled hroom outer origin m'.memory
  | unresized => exact hcapped
  | @resized p n outerSize outer b origin m m' _ found hK hm hlive hn hsize hlimit hcall hfound =>
    -- The growth was checked while the old block was counted; it is charged after that is gone.
    have hretired : (h.ledger.retire p b).Capped := hcapped.retire hlive
    have hroom := hcapped.hasRoom_retire hlive henabled hlimit
    have henabled' : (h.ledger.retire p b).enabled = true := henabled
    exact hretired.recordMalloc henabled' hroom outer origin m'.memory
  | released _ _ hlive => exact hcapped.retire hlive

/-- A heap with a ledger keeps it, and each call makes one change. Installing another is refused. -/
theorem HeapCall.perform_ready (call : HeapCall) {h : LedgerHeap σ}
    (henabled : h.ledger.enabled = true) :
    ∃ h', call.perform (.ready h) = .ready h' ∧ h.Change call.requesters h' := by
  have changed (call : HeapCall) (hproper : call.Proper (.ready h)) :
      ∃ h', call.perform (.ready h) = .ready h' ∧ h.Change call.requesters h' := by
    have hchange := call.perform_change (h := .ready h) (fun l hl => Option.some.inj hl ▸ henabled)
      hproper
    generalize call.perform (.ready h) = after at hchange
    cases hchange with
    | ready hh => exact ⟨_, rfl, hh⟩
  cases call with
  | install config policy => exact ⟨h, rfl, LedgerHeap.change_refl⟩
  | malloc n c origin => exact changed _ trivial
  | duplicate text c origin => exact changed _ trivial
  | realloc p n c origin => exact changed _ (by cases p <;> trivial)
  | free p => exact changed _ (by cases p <;> trivial)
  | overwrite mem => exact changed _ trivial

/-- A run keeps the configuration, and with it the ceilings. -/
theorem HeapCall.run_ready (calls : List HeapCall) {h : LedgerHeap σ}
    (henabled : h.ledger.enabled = true) (hcapped : h.ledger.Capped) :
    ∃ h', run calls (.ready h) = .ready h' ∧ h'.ledger.config = h.ledger.config ∧
      h'.ledger.Capped := by
  induction calls generalizing h with
  | nil => exact ⟨h, rfl, rfl, hcapped⟩
  | cons call calls ih =>
    obtain ⟨next, hnext, hchange⟩ := call.perform_ready henabled
    have hconfig := hchange.config henabled
    have henabled' : next.ledger.enabled = true := by
      rw [Ledger.enabled, Ledger.level, hconfig]
      exact henabled
    obtain ⟨last, hlast, hconfig', hcapped'⟩ := ih henabled' (hchange.capped henabled hcapped)
    refine ⟨last, ?_, hconfig'.trans hconfig, hcapped'⟩
    show run calls (call.perform (.ready h)) = .ready last
    rw [hnext, hlast]

namespace Heap

/-- Whatever a heap with a new ledger is asked for, over whatever host, neither all counted bytes
nor those of a category are ever above their ceiling. Below a ceiling that a sum of words can cross,
the bytes of all live blocks are counted. -/
theorem counted_within_ceilings {σ : Type} [HostAllocator σ] (e : EarlyHeap σ)
    {config : MemoryConfig} (henabled : config.tracking.enabled = true) (policy : CorruptionPolicy)
    (calls : List HeapCall) :
    ∃ h, HeapCall.run calls (.ready ⟨e, { config, policy }⟩) = .ready h ∧
      h.ledger.config = config ∧
      (∀ limit, config.mallocLimit.total = some limit →
        h.ledger.summary.total.bytes ≤ limit ∧ h.ledger.summary.total.peakBytes ≤ limit ∧
          (limit.toNat < 2 ^ 64 - 1 →
            (h.ledger.live.values.map (·.size.toNat)).sum ≤ h.ledger.summary.total.bytes.toNat)) ∧
      ∀ c limit, config.mallocLimit.category c = some limit →
        (h.ledger.summary.category c).bytes ≤ limit ∧
          (h.ledger.summary.category c).peakBytes ≤ limit ∧
          (limit.toNat < 2 ^ 64 - 1 →
            ((h.ledger.live.values.filter (·.category = c)).map (·.size.toNat)).sum ≤
              (h.ledger.summary.category c).bytes.toNat) := by
  obtain ⟨h, hrun, hconfig, hcapped⟩ :=
    HeapCall.run_ready calls (h := ⟨e, { config, policy }⟩) henabled (Ledger.capped_empty ..)
  have hconfig : h.ledger.config = config := hconfig
  unfold Ledger.Capped at hcapped
  rw [hconfig] at hcapped
  refine ⟨h, hrun, hconfig, fun limit hlimit => ?_, fun c limit hlimit => ?_⟩
  · obtain ⟨hbytes, hpeak⟩ := Counter.le_of_within hcapped.total hlimit
    refine ⟨hbytes, hpeak, fun hlt => ?_⟩
    have hcounted := (hcapped.total ⟨hlimit, hlt⟩).counted
    rwa [List.map_map] at hcounted
  · obtain ⟨hbytes, hpeak⟩ := Counter.le_of_within hcapped.category hlimit
    refine ⟨hbytes, hpeak, fun hlt => ?_⟩
    have hcounted := (hcapped.category ⟨hlimit, hlt⟩).counted
    rwa [List.map_map] at hcounted

/-- Two hundred bytes in all, and a hundred and twenty of them for the compiler. -/
def narrow : MemoryConfig where
  tracking := .detail
  mallocLimit := (MallocLimit.none.withTotal 200).withCategory .compiler 120

/-- A heap with a new ledger over an allocator without reuse. -/
def narrowHeap : Heap FreshAllocator :=
  .ready ⟨{ machine := ⟨{}, Memory.zero⟩ }, { config := narrow, policy := .keep }⟩

/-- A run up to both ceilings: a block grows to the one of its category and no further, another
takes what is left, and a damaged block and an address that is no block's are given back. -/
def crowdedRun : List HeapCall :=
  let origin : Origin := ⟨⟨"src/jit.rs", 7, 9⟩, .empty⟩
  [.malloc 100 .compiler origin, .realloc (some 0x100000000010) 120 .compiler origin,
    .realloc (some 0x100000000090) 121 .compiler origin,
    .duplicate (List.replicate 79 104) .gc origin, .malloc 1 .gc origin, .overwrite Memory.zero,
    .free (some 0x100000000090), .free (some 0x1234)]

theorem counted_within_ceilings_crowdedRun :
    narrow.tracking.enabled = true ∧
      ∃ h, HeapCall.run crowdedRun narrowHeap = .ready h ∧
        h.ledger.summary.total.bytes = 80 ∧ h.ledger.summary.total.peakBytes = 200 ∧
        h.ledger.summary.total.peakBytes ≤ 200 ∧
        (h.ledger.summary.category .compiler).peakBytes ≤ 120 := by
  have henabled : narrow.tracking.enabled = true := rfl
  obtain ⟨h, hrun, -, htotal, hcategory⟩ := counted_within_ceilings
    { machine := ⟨({} : FreshAllocator), Memory.zero⟩ } henabled .keep crowdedRun
  have hbytes : (HeapCall.run crowdedRun narrowHeap).ledger?.map
      (fun l => (l.summary.total.bytes, l.summary.total.peakBytes)) = some (80, 200) := by
    decide +kernel
  have hrun : HeapCall.run crowdedRun narrowHeap = .ready h := hrun
  rw [hrun] at hbytes
  obtain ⟨hnow, hpeak⟩ := Prod.mk.inj (Option.some.inj hbytes)
  exact ⟨henabled, h, hrun, hnow, hpeak, (htotal 200 rfl).2.1, (hcategory .compiler 120 rfl).2.1⟩

end Heap

end HostServices
