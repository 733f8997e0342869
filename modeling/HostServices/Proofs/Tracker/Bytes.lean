import HostServices.Proofs.Tracker.WellFormed
import Mathlib.Order.CompletePartialOrder
import Mathlib.Order.Interval.Set.Disjoint

/-!
# Tracked regions byte by byte

A tracker stands for a set of holdings, and a call on it for an operation on such sets
(`TrackerCall.onHoldings`) that knows bytes only: neither bases nor the order of regions. Each call
that has a size does to the holdings what its operation says and answers as it says
(`Shaped.perform_holdings`, `Shaped.perform_answer`), and the searches answer which holding has a byte
(`Shaped.regionAt_iff`). Earlier calls may have been of no size.
-/

namespace HostServices

namespace Holding

/-- Change the holding that has a byte. -/
def atByte (a : ℕ) (g : Holding → Holding) (ks : Set Holding) : Set Holding :=
  {k | k ∈ ks ∧ a ∉ k.bytes} ∪ g '' {k | k ∈ ks ∧ a ∈ k.bytes}

/-- Some holding has a byte. -/
def Has (a : ℕ) (ks : Set Holding) : Prop :=
  ∃ k ∈ ks, a ∈ k.bytes

/-- Some holding has a byte of a set. -/
def Meets (s : Set ℕ) (ks : Set Holding) : Prop :=
  ∃ k ∈ ks, (k.bytes ∩ s).Nonempty

/-- A reservation drops the holdings that it overlaps. Nothing of it is committed. -/
def reserve (base size : ℕ) (c : Category) (site : CallSite) (ks : Set Holding) : Set Holding :=
  {k | k ∈ ks ∧ Disjoint k.bytes (Set.Ico base (base + size))} ∪
    {⟨Set.Ico base (base + size), c, site, ∅⟩}

/-- A release leaves of each holding what lies beside the range. -/
def release (start stop : ℕ) (ks : Set Holding) : Set Holding :=
  {p | ∃ k ∈ ks, p ∈ k.beside start stop}

end Holding

/-- The end of a range, held at the largest address. -/
def heldEnd (addr size : UInt64) : ℕ :=
  min (addr.toNat + size.toNat) (2 ^ 64 - 1)

namespace TrackerCall

/-- What a call means for the holdings. A reservation that would end beyond the top means
nothing. -/
def onHoldings : TrackerCall → Set Holding → Set Holding
  | reserve base size c site, ks =>
    if base.toNat + size.toNat < 2 ^ 64 then Holding.reserve base.toNat size.toNat c site ks else ks
  | reserveCommitted base size c site, ks =>
    if base.toNat + size.toNat < 2 ^ 64 then
      Holding.atByte base.toNat (Holding.commit (Set.Ico base.toNat (base.toNat + size.toNat)))
        (Holding.reserve base.toNat size.toNat c site ks)
    else ks
  | setCategory addr c, ks => Holding.atByte addr.toNat (fun k => { k with category := c }) ks
  | commit addr size, ks =>
    Holding.atByte addr.toNat (Holding.commit (Set.Ico addr.toNat (heldEnd addr size))) ks
  | uncommit addr size, ks =>
    Holding.atByte addr.toNat (Holding.uncommit (Set.Ico addr.toNat (heldEnd addr size))) ks
  | release addr size, ks => Holding.release addr.toNat (heldEnd addr size) ks

open Classical in
/-- What a call answers. -/
noncomputable def answer : TrackerCall → Set Holding → Except Stop Bool
  | reserve base size _ _, _ | reserveCommitted base size _ _, _ =>
    if base.toNat + size.toNat < 2 ^ 64 then .ok true else .error (.fault .addOverflow)
  | setCategory .., _ => .ok true
  | commit addr _, ks | uncommit addr _, ks => .ok (decide (Holding.Has addr.toNat ks))
  | release addr size, ks =>
    .ok (decide (Holding.Meets (Set.Ico addr.toNat (heldEnd addr size)) ks))

end TrackerCall

namespace Tracker

/-- What the regions stand for. -/
def holdings (t : Tracker) : Set Holding :=
  {k | ∃ e ∈ t.regions.toList, e.2.holding = k}

variable {gap : ℕ} {t : Tracker} {addr size : UInt64}

theorem toNat_addSat_eq (addr size : UInt64) :
    (Word.addSat addr size).toNat = heldEnd addr size :=
  Word.toNat_addSat addr size

/-! ## Searches -/

namespace Shaped

/-- A search for an address answers the region of the holding that has it. -/
theorem regionAt_iff (h : t.Shaped gap) {k : Holding} :
    (∃ r, t.regionAt addr = some r ∧ r.holding = k) ↔ k ∈ t.holdings ∧ addr.toNat ∈ k.bytes := by
  simp only [regionAt, Option.map_eq_some_iff, h.entryAt_eq_some]
  constructor
  · rintro ⟨r, ⟨e, ⟨he, hin⟩, rfl⟩, rfl⟩
    exact ⟨⟨e, he, rfl⟩, hin⟩
  · rintro ⟨⟨e, he, rfl⟩, hin⟩
    exact ⟨e.2, ⟨e, ⟨he, hin⟩, rfl⟩, rfl⟩

theorem isSome_entryAt (h : t.Shaped gap) :
    (t.entryAt addr).isSome = true ↔ Holding.Has addr.toNat t.holdings := by
  rw [Option.isSome_iff_exists]
  simp only [h.entryAt_eq_some]
  constructor
  · rintro ⟨e, he, hin⟩
    exact ⟨e.2.holding, ⟨e, he, rfl⟩, hin⟩
  · rintro ⟨_, ⟨e, he, rfl⟩, hin⟩
    exact ⟨e, he, hin⟩

/-! ## Calls -/

theorem holdings_adjust (h : t.Shaped gap) {f : Region → Region} {g : Holding → Holding}
    (hg : ∀ r : Region, r.Shaped gap → addr.toNat ∈ r.holding.bytes →
      (f r).holding = g r.holding) :
    (t.adjust addr f).holdings = Holding.atByte addr.toNat g t.holdings := by
  ext k
  cases hx : t.entryAt addr with
  | none =>
    have hout := h.entryAt_eq_none.1 hx
    rw [adjust_of_none hx]
    constructor
    · rintro ⟨e, he, rfl⟩
      exact .inl ⟨⟨e, he, rfl⟩, hout e he⟩
    · rintro (⟨hk, -⟩ | ⟨_, ⟨⟨e, he, rfl⟩, hin⟩, rfl⟩)
      · exact hk
      · exact absurd hin (hout e he)
  | some x =>
    obtain ⟨hmem, hin⟩ := h.entryAt_eq_some.1 hx
    constructor
    · rintro ⟨e, he, rfl⟩
      rcases (h.mem_adjust hx).1 he with rfl | ⟨he, hout⟩
      · exact .inr ⟨x.2.holding, ⟨⟨x, hmem, rfl⟩, hin⟩, (hg x.2 (h.regions x hmem) hin).symm⟩
      · exact .inl ⟨⟨e, he, rfl⟩, hout⟩
    · rintro (⟨⟨e, he, rfl⟩, hout⟩ | ⟨_, ⟨⟨e, he, rfl⟩, hine⟩, rfl⟩)
      · exact ⟨e, (h.mem_adjust hx).2 (.inr ⟨he, hout⟩), rfl⟩
      · obtain rfl := Option.some.inj (hx.symm.trans (h.entryAt_eq_some.2 ⟨he, hine⟩))
        exact ⟨_, (h.mem_adjust hx).2 (.inl rfl), hg x.2 (h.regions x he) hine⟩

theorem holdings_reserved (h : t.Shaped gap) {base size : UInt64} {c : Category} {site : CallSite}
    (hs : size ≠ 0) (hfits : base.toNat + size.toNat < 2 ^ 64) :
    (t.reserved base size c site).holdings =
      Holding.reserve base.toNat size.toNat c site t.holdings := by
  have hnew : Region.holding ⟨base, size, c, site, .empty⟩ =
      ⟨Set.Ico base.toNat (base.toNat + size.toNat), c, site, ∅⟩ := by
    rw [Region.holding, Region.covered_empty, (shaped_new hs hfits : Region.Shaped 0 _).toNat_finish]
  have hbeside (e : UInt64 × Region) (he : e ∈ t.regions.toList) :
      e.2.finish.toNat ≤ base.toNat ∨ base.toNat + size.toNat ≤ e.2.base.toNat ↔
        Disjoint e.2.holding.bytes (Set.Ico base.toNat (base.toNat + size.toNat)) := by
    have hpos : 0 < size.toNat := UInt64.lt_iff_toNat_lt.1 (UInt64.pos_iff_ne_zero.2 hs)
    have hlt := (h.regions e he).base_lt_finish
    rw [Region.holding, Set.Ico_disjoint_Ico]
    omega
  ext k
  constructor
  · rintro ⟨e, he, rfl⟩
    rcases (h.mem_reserved hs hfits).1 he with rfl | ⟨he, hside⟩
    · exact .inr hnew
    · exact .inl ⟨⟨e, he, rfl⟩, (hbeside e he).1 hside⟩
  · rintro (⟨⟨e, he, rfl⟩, hd⟩ | rfl)
    · exact ⟨e, (h.mem_reserved hs hfits).2 (.inr ⟨he, (hbeside e he).2 hd⟩), rfl⟩
    · exact ⟨_, (h.mem_reserved hs hfits).2 (.inl rfl), hnew⟩

/-- What a region holds beside a range that it does not reach is all of it. -/
theorem mem_beside_of_beside {r : Region} (h : r.Shaped gap) {start stop : ℕ} {k : Holding}
    (hle : start ≤ stop) (hside : r.finish.toNat ≤ start ∨ stop ≤ r.base.toNat) :
    k ∈ r.holding.beside start stop ↔ k = r.holding := by
  have hself (s : Set ℕ) (hs : r.holding.bytes ⊆ s) : r.holding.only s = r.holding :=
    Holding.only_eq_self h.covered_subset hs
  have hempty (s : Set ℕ) (hs : Disjoint r.holding.bytes s) : ¬ (r.holding.only s).bytes.Nonempty :=
    Set.not_nonempty_iff_eq_empty.2 hs.inter_eq
  rcases hside with hside | hside
  · have hlo : r.holding.bytes ⊆ Set.Iio start := fun a ha => Nat.lt_of_lt_of_le ha.2 hside
    have hhi : Disjoint r.holding.bytes (Set.Ici stop) :=
      Set.disjoint_left.2 fun a ha ha' => by
        have h₁ : a < start := hlo ha
        have h₂ : stop ≤ a := ha'
        omega
    constructor
    · rintro ⟨rfl | rfl, hne⟩
      · exact hself _ hlo
      · exact absurd hne (hempty _ hhi)
    · rintro rfl
      exact ⟨.inl (hself _ hlo).symm, h.bytes_nonempty⟩
  · have hhi : r.holding.bytes ⊆ Set.Ici stop := fun a ha => Nat.le_trans hside ha.1
    have hlo : Disjoint r.holding.bytes (Set.Iio start) :=
      Set.disjoint_left.2 fun a ha ha' => by
        have h₁ : stop ≤ a := hhi ha
        have h₂ : a < start := ha'
        omega
    constructor
    · rintro ⟨rfl | rfl, hne⟩
      · exact absurd hne (hempty _ hlo)
      · exact hself _ hhi
    · rintro rfl
      exact ⟨.inr (hself _ hhi).symm, h.bytes_nonempty⟩

theorem holdings_released (h : t.Shaped gap) {start stop : UInt64}
    (hle : start.toNat ≤ stop.toNat) :
    (t.released start stop).holdings = Holding.release start.toNat stop.toNat t.holdings := by
  ext k
  constructor
  · rintro ⟨e, he, rfl⟩
    rcases (h.mem_released hle).1 he with ⟨he, hside⟩ | ⟨-, x, hx, -, -, hp⟩
    · exact ⟨_, ⟨e, he, rfl⟩, (mem_beside_of_beside (h.regions e he) hle hside).2 rfl⟩
    · exact ⟨_, ⟨x, hx, rfl⟩, (Region.exists_remains_iff (h.regions x hx)).1 ⟨e.2, hp, rfl⟩⟩
  · rintro ⟨_, ⟨e, he, rfl⟩, hk⟩
    by_cases hside : e.2.finish.toNat ≤ start.toNat ∨ stop.toNat ≤ e.2.base.toNat
    · obtain rfl := (mem_beside_of_beside (h.regions e he) hle hside).1 hk
      exact ⟨e, (h.mem_released hle).2 (.inl ⟨he, hside⟩), rfl⟩
    · obtain ⟨p, hp, rfl⟩ := (Region.exists_remains_iff (h.regions e he)).2 hk
      exact ⟨(p.base, p), (h.mem_released hle).2
        (.inr ⟨rfl, e, he, by omega, by omega, hp⟩), rfl⟩

/-- A search for the regions that a range overlaps finds one exactly if some holding has a byte of
the range. -/
theorem isEmpty_overlapping (h : t.Shaped gap) (start stop : UInt64)
    (hlt : start.toNat < 2 ^ 64 - 1 → start.toNat < stop.toNat) :
    (!(t.overlapping start stop).isEmpty) = true ↔
      Holding.Meets (Set.Ico start.toNat stop.toNat) t.holdings := by
  rw [Bool.not_eq_true', List.isEmpty_eq_false_iff_exists_mem]
  simp only [h.mem_overlapping]
  have common (e : UInt64 × Region) (he : e ∈ t.regions.toList) :
      e.2.base.toNat < stop.toNat ∧ start.toNat < e.2.finish.toNat ↔
        (e.2.holding.bytes ∩ Set.Ico start.toNat stop.toNat).Nonempty := by
    have := (h.regions e he).base_lt_finish
    have := e.2.finish.toNat_lt
    rw [Region.holding, Set.Ico_inter_Ico, Set.nonempty_Ico]
    omega
  constructor
  · rintro ⟨e, he, hover⟩
    exact ⟨e.2.holding, ⟨e, he, rfl⟩, (common e he).1 hover⟩
  · rintro ⟨_, ⟨e, he, rfl⟩, hmeet⟩
    exact ⟨e, he, (common e he).2 hmeet⟩

theorem holdings_commit (h : t.Shaped gap) (addr size : UInt64) :
    ((Tracker.commit addr size).run t).state.holdings =
      Holding.atByte addr.toNat (Holding.commit (Set.Ico addr.toNat (heldEnd addr size)))
        t.holdings := by
  rw [(run_commit addr size t).1, ← toNat_addSat_eq]
  exact h.holdings_adjust fun r hr _ => Region.holding_commit hr _ _

theorem holdings_uncommit (h : t.Shaped gap) (hgap : gap ≤ 1) (addr : UInt64)
    (hs : 0 < gap → size ≠ 0) :
    ((Tracker.uncommit addr size).run t).state.holdings =
      Holding.atByte addr.toNat (Holding.uncommit (Set.Ico addr.toNat (heldEnd addr size)))
        t.holdings := by
  rw [(run_uncommit addr size t).1, ← toNat_addSat_eq]
  exact h.holdings_adjust fun r hr hin => Region.holding_uncommit hr (add_gap_le_addSat hgap hs hin)

/-- Each call does to the holdings what it means. -/
theorem perform_holdings (h : t.Shaped gap) (hgap : gap ≤ 1) {call : TrackerCall}
    (hs : call.Sized) : (call.perform.run t).state.holdings = call.onHoldings t.holdings := by
  cases call with
  | reserve base size c site =>
    obtain ⟨hfits, hstate, -⟩ | ⟨hbig, hstate, -⟩ := perform_reserve_cases hs base c site t
    · rw [hstate, TrackerCall.onHoldings, if_pos hfits]
      exact h.holdings_reserved hs hfits
    · rw [hstate, TrackerCall.onHoldings, if_neg hbig]
  | reserveCommitted base size c site =>
    obtain ⟨hfits, hstate, -⟩ | ⟨hbig, hstate, -⟩ := perform_reserveCommitted_cases hs base c site t
    · have hend : heldEnd base size = base.toNat + size.toNat := by
        rw [heldEnd]
        omega
      rw [hstate, TrackerCall.onHoldings, if_pos hfits, ← h.holdings_reserved hs hfits, ← hend]
      exact (h.reserved hs hfits).holdings_commit base size
    · rw [hstate, TrackerCall.onHoldings, if_neg hbig]
  | setCategory addr c => exact h.holdings_adjust fun r _ _ => rfl
  | commit addr size => exact h.holdings_commit addr size
  | uncommit addr size => exact h.holdings_uncommit hgap addr fun _ => hs
  | release addr size =>
    show ((Tracker.release addr size).run t).state.holdings = _
    rw [(run_release addr size t).1, h.holdings_released (le_addSat addr size), toNat_addSat_eq]
    rfl

open Classical in
/-- Each call answers what it means. -/
theorem perform_answer (h : t.Shaped gap) {call : TrackerCall} (hs : call.Sized) :
    (call.perform.run t).result = call.answer t.holdings := by
  have decided {b : Bool} {p : Prop} (hp : b = true ↔ p) :
      (.ok b : Except Stop Bool) = .ok (decide p) := by
    rw [Bool.eq_iff_iff.2 (hp.trans decide_eq_true_iff.symm)]
  cases call with
  | reserve base size c site =>
    obtain ⟨hfits, -, hresult⟩ | ⟨hbig, -, hresult⟩ := perform_reserve_cases hs base c site t
    · rw [hresult, TrackerCall.answer, if_pos hfits]
    · rw [hresult, TrackerCall.answer, if_neg hbig]
  | reserveCommitted base size c site =>
    obtain ⟨hfits, -, hresult⟩ | ⟨hbig, -, hresult⟩ := perform_reserveCommitted_cases hs base c site t
    · rw [hresult, TrackerCall.answer, if_pos hfits]
    · rw [hresult, TrackerCall.answer, if_neg hbig]
  | setCategory addr c => rfl
  | commit addr size =>
    show ((Tracker.commit addr size).run t).result = _
    rw [(run_commit addr size t).2]
    exact decided h.isSome_entryAt
  | uncommit addr size =>
    show ((Tracker.uncommit addr size).run t).result = _
    rw [(run_uncommit addr size t).2]
    exact decided h.isSome_entryAt
  | release addr size =>
    have hpos : 0 < size.toNat := UInt64.lt_iff_toNat_lt.1 (UInt64.pos_iff_ne_zero.2 hs)
    have hlt : addr.toNat < 2 ^ 64 - 1 → addr.toNat < (Word.addSat addr size).toNat := by
      rw [toNat_addSat_eq, heldEnd]
      omega
    have hmeets := h.isEmpty_overlapping addr (Word.addSat addr size) hlt
    rw [toNat_addSat_eq] at hmeets
    show ((Tracker.release addr size).run t).result = _
    rw [(run_release addr size t).2]
    exact decided hmeets

end Shaped

/-- In every state that calls lead to, those of no size included, each further call that has a size
does to the holdings what it means and answers so, and the searches answer for every address what the
holdings say. -/
theorem run_refines_holdings (calls : List TrackerCall) (call : TrackerCall) (hs : call.Sized) :
    (call.perform.run (TrackerCall.run calls {})).state.holdings =
        call.onHoldings (TrackerCall.run calls {}).holdings ∧
      (call.perform.run (TrackerCall.run calls {})).result =
        call.answer (TrackerCall.run calls {}).holdings ∧
      (∀ (addr : UInt64) (k : Holding),
        (∃ r, (TrackerCall.run calls {}).regionAt addr = some r ∧ r.holding = k) ↔
          k ∈ (TrackerCall.run calls {}).holdings ∧ addr.toNat ∈ k.bytes) ∧
      ∀ r ∈ (TrackerCall.run calls {}).regions.values, ∀ addr : UInt64,
        (r.contains addr = true ↔ addr.toNat ∈ r.holding.bytes) ∧
          (r.isCommitted addr = true ↔ addr.toNat ∈ r.holding.committed) := by
  have h : (TrackerCall.run calls {}).Shaped 0 := shaped_run calls
  refine ⟨h.perform_holdings (Nat.zero_le 1) hs, h.perform_answer hs, fun _ _ => h.regionAt_iff,
    fun r hr addr => ?_⟩
  obtain ⟨e, he, rfl⟩ := List.mem_map.1 hr
  exact ⟨Region.contains_iff, (h.regions e he).isCommitted_iff⟩

/-- The front part of a region is released, after a call of no size has cut its committed bytes into
two ranges that touch. -/
theorem splittingRun_refines_holdings :
    let calls := splittingRun ++ [.uncommit 0x1800 0]
    (TrackerCall.release 0x1000 0x800).Sized ∧
      ((TrackerCall.release 0x1000 0x800).perform.run (TrackerCall.run calls {})).state.holdings =
        (TrackerCall.release 0x1000 0x800).onHoldings (TrackerCall.run calls {}).holdings ∧
      ((TrackerCall.release 0x1000 0x800).perform.run (TrackerCall.run calls {})).result =
        (TrackerCall.release 0x1000 0x800).answer (TrackerCall.run calls {}).holdings := by
  intro calls
  have hs : (TrackerCall.release 0x1000 0x800).Sized := by simp [TrackerCall.Sized]
  obtain ⟨hstate, hresult, -⟩ := run_refines_holdings calls (.release 0x1000 0x800) hs
  exact ⟨hs, hstate, hresult⟩

end Tracker

end HostServices
