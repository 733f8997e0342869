import HostServices.Proofs.Checked
import HostServices.Proofs.Tracker.WellFormed
import HostServices.Tracker.Report
import Mathlib.Algebra.BigOperators.Group.List.Basic
import Mathlib.Algebra.Order.BigOperators.Group.List
import Mathlib.Data.Set.Card
import Mathlib.Order.Interval.Set.Nat

/-!
# Exact totals

The totals of a tracker are checked sums over its regions. Regions and committed ranges do not
overlap, so the sums of their sizes count bytes (`ncard_of_pairwise`), of which there are fewer than
words: no sum overflows (`Usage.sum_eq_ok`). The table that a summary is read from holds what each
category adds up to on its own (`Usage.foldlM_charge`). Together: `totals_exact`.
-/

namespace HostServices

/-! ## Counting bytes -/

/-- The sizes of disjoint sets add up to the number of their elements. -/
theorem ncard_of_pairwise {α : Type} {l : List α} {s : α → Set ℕ} (hfinite : ∀ x ∈ l, (s x).Finite)
    (h : l.Pairwise fun x y => ∀ a ∈ s x, a ∉ s y) :
    {a | ∃ x ∈ l, a ∈ s x}.Finite ∧
      {a | ∃ x ∈ l, a ∈ s x}.ncard = (l.map fun x => (s x).ncard).sum := by
  induction l with
  | nil => simp
  | cons x xs ih =>
    obtain ⟨hx, hxs⟩ := List.pairwise_cons.1 h
    obtain ⟨hrest, hcount⟩ := ih (fun y hy => hfinite y (List.mem_cons_of_mem _ hy)) hxs
    have hsplit : {a | ∃ y ∈ x :: xs, a ∈ s y} = s x ∪ {a | ∃ y ∈ xs, a ∈ s y} := by
      ext a
      simp
    have hdisjoint : Disjoint (s x) {a | ∃ y ∈ xs, a ∈ s y} :=
      Set.disjoint_left.2 fun a ha ⟨y, hy, hya⟩ => hx y hy a ha hya
    have hfirst := hfinite x List.mem_cons_self
    rw [hsplit, Set.ncard_union_eq hdisjoint hfirst hrest, hcount, List.map_cons, List.sum_cons]
    exact ⟨hfirst.union hrest, rfl⟩

namespace Checked

/-- Values that add up to a word are added without a fault. -/
theorem foldlM_add {α : Type} {l : List α} {f : α → Except Fault UInt64} {n : α → ℕ}
    (hf : ∀ x ∈ l, ∃ w, f x = .ok w ∧ w.toNat = n x) (sum : UInt64)
    (hsum : sum.toNat + (l.map n).sum < 2 ^ 64) :
    ∃ w, l.foldlM (fun sum x => do add sum (← f x)) sum = .ok w ∧
      w.toNat = sum.toNat + (l.map n).sum := by
  induction l generalizing sum with
  | nil => exact ⟨sum, rfl, rfl⟩
  | cons x xs ih =>
    rw [List.map_cons, List.sum_cons, ← Nat.add_assoc] at hsum
    obtain ⟨v, hv, hvx⟩ := hf x List.mem_cons_self
    have hstep : (do add sum (← f x)) = .ok (sum + v) := by
      rw [hv]
      exact add_of_lt (by omega)
    have hvalue : (sum + v).toNat = sum.toNat + n x := by
      rw [Word.toNat_add_of_lt (by omega), hvx]
    obtain ⟨w, hw, hwsum⟩ := ih (fun y hy => hf y (List.mem_cons_of_mem _ hy)) (sum + v) (by omega)
    refine ⟨w, ?_, by rw [hwsum, hvalue, List.map_cons, List.sum_cons, Nat.add_assoc]⟩
    rw [List.foldlM_cons, hstep]
    exact hw

end Checked

namespace Region

variable {gap : ℕ} {r : Region}

/-- The bytes of a region that are committed are counted by the lengths of its ranges. -/
theorem ncard_committed (h : r.Shaped gap) :
    r.holding.committed.Finite ∧
      r.holding.committed.ncard = (r.ranges.map fun x => x.2.toNat - x.1.toNat).sum := by
  have hdisjoint : r.ranges.Pairwise fun x y =>
      ∀ a ∈ Set.Ico x.1.toNat x.2.toNat, a ∉ Set.Ico y.1.toNat y.2.toNat :=
    h.spaced.next.imp fun hxy a ⟨_, hx⟩ ⟨hy, _⟩ => by omega
  obtain ⟨hfinite, hcount⟩ := ncard_of_pairwise (fun x _ => Set.finite_Ico _ _) hdisjoint
  simp only [Set.ncard_Ico_nat] at hcount
  exact ⟨hfinite, hcount⟩

theorem ncard_bytes (h : r.Shaped gap) : r.holding.bytes.ncard = r.size.toNat := by
  rw [holding, Set.ncard_Ico_nat, h.toNat_finish, Nat.add_sub_cancel_left]

/-- The committed size is the number of committed bytes. -/
theorem committedSize_eq_ok (h : r.Shaped gap) :
    ∃ n, r.committedSize = .ok n ∧ n.toNat = r.holding.committed.ncard := by
  have hcount := (ncard_committed h).2
  have hbound : r.holding.committed.ncard ≤ r.holding.bytes.ncard :=
    Set.ncard_le_ncard h.covered_subset (Set.finite_Ico _ _)
  have := r.size.toNat_lt
  rw [ncard_bytes h] at hbound
  have hlength (x : UInt64 × UInt64) (hx : x ∈ r.ranges) :
      ∃ w, Checked.sub x.2 x.1 = .ok w ∧ w.toNat = x.2.toNat - x.1.toNat := by
    have hle := Nat.le_of_lt (h.spaced.nonempty x hx)
    exact ⟨x.2 - x.1, Checked.sub_of_le hle, Word.toNat_sub_of_le hle⟩
  obtain ⟨n, hn, hsum⟩ := Checked.foldlM_add hlength 0 (by
    rw [← hcount, UInt64.toNat_zero]
    omega)
  refine ⟨n, hn, ?_⟩
  rw [hsum, hcount, UInt64.toNat_zero, Nat.zero_add]

end Region

/-! ## Categories -/

namespace Category

theorem count_all (c : Category) : all.count c = 1 := by
  cases c <;> rfl

/-- Categories are listed in the order of their places. -/
theorem pairwise_all : all.Pairwise fun c c' => c.index < c'.index := by
  decide

end Category

/-! ## Usages -/

namespace Usage

/-- The usage counts the bytes that some regions have and, of these, the committed ones. -/
structure Counts (u : Usage) (regions : List Region) : Prop where
  reserved : u.reserved.toNat = {a | ∃ r ∈ regions, a ∈ r.holding.bytes}.ncard
  committed : u.committed.toNat = {a | ∃ r ∈ regions, a ∈ r.holding.committed}.ncard

variable {gap : ℕ} {regions : List Region}

theorem add_eq_ok {u : Usage} {r : Region} (h : r.Shaped gap)
    (hreserved : u.reserved.toNat + r.holding.bytes.ncard < 2 ^ 64)
    (hcommitted : u.committed.toNat + r.holding.committed.ncard < 2 ^ 64) :
    ∃ u', u.add r = .ok u' ∧ u'.reserved.toNat = u.reserved.toNat + r.holding.bytes.ncard ∧
      u'.committed.toNat = u.committed.toNat + r.holding.committed.ncard := by
  obtain ⟨n, hn, hcount⟩ := Region.committedSize_eq_ok h
  rw [Region.ncard_bytes h] at hreserved ⊢
  rw [← hcount] at hcommitted ⊢
  refine ⟨⟨u.reserved + r.size, u.committed + n⟩, ?_, Word.toNat_add_of_lt hreserved,
    Word.toNat_add_of_lt hcommitted⟩
  rw [add, Checked.add_of_lt hreserved, hn]
  show (Checked.add u.committed n >>= _) = _
  rw [Checked.add_of_lt hcommitted]
  rfl

/-- Sums over regions that have room for all of their bytes do not overflow. -/
theorem foldlM_add (h : ∀ r ∈ regions, r.Shaped gap) (u : Usage)
    (hreserved : u.reserved.toNat + (regions.map fun r => r.holding.bytes.ncard).sum < 2 ^ 64)
    (hcommitted :
      u.committed.toNat + (regions.map fun r => r.holding.committed.ncard).sum < 2 ^ 64) :
    ∃ u', regions.foldlM add u = .ok u' ∧
      u'.reserved.toNat = u.reserved.toNat + (regions.map fun r => r.holding.bytes.ncard).sum ∧
      u'.committed.toNat =
        u.committed.toNat + (regions.map fun r => r.holding.committed.ncard).sum := by
  induction regions generalizing u with
  | nil => exact ⟨u, rfl, rfl, rfl⟩
  | cons r rs ih =>
    simp only [List.map_cons, List.sum_cons, ← Nat.add_assoc] at hreserved hcommitted ⊢
    obtain ⟨v, hv, hvreserved, hvcommitted⟩ := add_eq_ok (u := u) (h r List.mem_cons_self)
      (by omega) (by omega)
    rw [← hvreserved] at hreserved ⊢
    rw [← hvcommitted] at hcommitted ⊢
    obtain ⟨u', hu', hcounts⟩ := ih (fun r hr => h r (List.mem_cons_of_mem _ hr)) v hreserved
      hcommitted
    refine ⟨u', ?_, hcounts⟩
    rw [List.foldlM_cons, hv]
    exact hu'

/-- Each category's usage in a table is the sum over its own regions. -/
theorem foldlM_charge {usages usages' : Category → Usage}
    (h : ∀ c, (regions.filter (·.category = c)).foldlM add (usages c) = .ok (usages' c)) :
    regions.foldlM charge usages = .ok usages' := by
  induction regions generalizing usages with
  | nil => exact congrArg Except.ok (funext fun c => Except.ok.inj (h c))
  | cons r rs ih =>
    have hown := h r.category
    rw [List.filter_cons_of_pos (by exact decide_eq_true rfl), List.foldlM_cons] at hown
    cases hadd : (usages r.category).add r with
    | error fault =>
      rw [hadd] at hown
      cases hown
    | ok u =>
      rw [hadd] at hown
      have hstep : charge usages r = .ok fun c => if c = r.category then u else usages c := by
        rw [charge, hadd]
        rfl
      rw [List.foldlM_cons, hstep]
      refine ih fun c => ?_
      by_cases hc : c = r.category
      · rw [if_pos hc, hc]
        exact hown
      · have hother := h c
        rw [List.filter_cons_of_neg (by simpa using Ne.symm hc)] at hother
        rw [if_neg hc]
        exact hother

/-- What all regions add up to is what the regions of each category do, over all categories. -/
theorem sum_categories (regions : List Region) (f : Region → ℕ) :
    (Category.all.map fun c => ((regions.filter (·.category = c)).map f).sum).sum =
      (regions.map f).sum := by
  induction regions with
  | nil => simp
  | cons r rs ih =>
    have hsplit (c : Category) : (((r :: rs).filter (·.category = c)).map f).sum =
        (if c = r.category then f r else 0) + ((rs.filter (·.category = c)).map f).sum := by
      by_cases hc : c = r.category
      · rw [if_pos hc, List.filter_cons_of_pos (by simpa using hc.symm), List.map_cons,
          List.sum_cons]
      · rw [if_neg hc, List.filter_cons_of_neg (by simpa using Ne.symm hc), Nat.zero_add]
    have hown : (Category.all.map fun c => if c = r.category then f r else 0).sum = f r := by
      rw [List.sum_map_eq_nsmul_single r.category _ fun c hc _ => if_neg hc, if_pos rfl,
        Category.count_all, one_nsmul]
    simp only [hsplit, List.sum_map_add, hown, ih, List.map_cons, List.sum_cons]

/-- The committed bytes of regions are some of their bytes. -/
theorem sum_committed_le (h : ∀ r ∈ regions, r.Shaped gap) :
    (regions.map fun r => r.holding.committed.ncard).sum ≤
      (regions.map fun r => r.holding.bytes.ncard).sum :=
  List.sum_le_sum fun r hr => Set.ncard_le_ncard (h r hr).covered_subset (Set.finite_Ico _ _)

/-- Fewer addresses than words are in regions, since each of them ends below the top. -/
theorem ncard_lt {s : Region → Set ℕ} (hs : ∀ r ∈ regions, s r ⊆ r.holding.bytes) :
    {a | ∃ r ∈ regions, a ∈ s r}.ncard < 2 ^ 64 := by
  have hsub : {a | ∃ r ∈ regions, a ∈ s r} ⊆ Set.Iio (2 ^ 64 - 1) := by
    rintro a ⟨r, hr, ha⟩
    have ha : a < r.finish.toNat := (hs r hr ha).2
    have := r.finish.toNat_lt
    exact Set.mem_Iio.2 (by omega)
  have := Set.ncard_le_ncard hsub (Set.finite_Iio _)
  rw [Set.ncard_Iio_nat] at this
  omega

/-- The usage of regions that do not overlap is a sum that does not overflow. -/
theorem sum_eq_ok (h : ∀ r ∈ regions, r.Shaped gap)
    (hdisjoint : regions.Pairwise fun r r' => r.finish ≤ r'.base) :
    ∃ u, sum regions = .ok u ∧ u.Counts regions ∧
      u.reserved.toNat = (regions.map fun r => r.holding.bytes.ncard).sum ∧
      u.committed.toNat = (regions.map fun r => r.holding.committed.ncard).sum := by
  have hbytes : regions.Pairwise fun r r' => ∀ a ∈ r.holding.bytes, a ∉ r'.holding.bytes :=
    hdisjoint.imp fun hle a ⟨_, ha⟩ ⟨ha', _⟩ => by
      have := UInt64.le_iff_toNat_le.1 hle
      omega
  have hcommits : regions.Pairwise fun r r' => ∀ a ∈ r.holding.committed, a ∉ r'.holding.committed :=
    hbytes.imp_of_mem fun hr hr' hd a ha ha' =>
      hd a ((h _ hr).covered_subset ha) ((h _ hr').covered_subset ha')
  have hreserved : {a | ∃ r ∈ regions, a ∈ r.holding.bytes}.ncard =
      (regions.map fun r => r.holding.bytes.ncard).sum :=
    (ncard_of_pairwise (fun r _ => Set.finite_Ico _ _) hbytes).2
  have hcommitted : {a | ∃ r ∈ regions, a ∈ r.holding.committed}.ncard =
      (regions.map fun r => r.holding.committed.ncard).sum :=
    (ncard_of_pairwise (fun r hr => (Region.ncard_committed (h r hr)).1) hcommits).2
  have hroom := ncard_lt (s := fun r => r.holding.bytes) fun r (_ : r ∈ regions) => subset_rfl
  have hroom' := ncard_lt (s := fun r => r.holding.committed) fun r hr => (h r hr).covered_subset
  rw [hreserved, ← Nat.zero_add (List.sum _)] at hroom
  rw [hcommitted, ← Nat.zero_add (List.sum _)] at hroom'
  obtain ⟨u, hu, hur, huc⟩ := foldlM_add h {} hroom hroom'
  replace hur := hur.trans (Nat.zero_add _)
  replace huc := huc.trans (Nat.zero_add _)
  exact ⟨u, hu, ⟨hur.trans hreserved.symm, huc.trans hcommitted.symm⟩, hur, huc⟩

/-! ## Summaries -/

/-- The categories with reserved bytes, in the order of their places. -/
def used (usage : Category → Usage) : List (Category × Usage) :=
  (Category.all.map fun c => (c, usage c)).filter fun x => 0 < x.2.reserved

theorem mem_used {usage : Category → Usage} {c : Category} {u : Usage} :
    (c, u) ∈ used usage ↔ u = usage c ∧ 0 < u.reserved := by
  rw [used, List.mem_filter, List.mem_map, decide_eq_true_iff]
  refine and_congr_left fun _ => ⟨?_, ?_⟩
  · rintro ⟨c', -, hc⟩
    obtain ⟨rfl, rfl⟩ := Prod.mk.inj hc
    rfl
  · rintro rfl
    exact ⟨c, c.mem_all, rfl⟩

theorem pairwise_used (usage : Category → Usage) :
    (used usage).Pairwise fun x y => x.1.index < y.1.index :=
  List.Pairwise.filter _ (List.pairwise_map.2 Category.pairwise_all)

end Usage

namespace Tracker

/-- The summary is read from a table that has the usage of each category. -/
theorem summary_eq_ok {t : Tracker} {usage : Category → Usage}
    (husage : ∀ c, t.usage c = .ok (usage c)) : t.summary = .ok (Usage.used usage) := by
  rw [summary, Usage.foldlM_charge husage]
  rfl

/-- In every state that calls lead to, the totals exist: no sum overflows. They count the bytes of
all regions and of the regions of each category, and add up over the categories, and the summary
lists the usage of each category that has reserved bytes. -/
theorem totals_exact (calls : List TrackerCall) :
    let t := TrackerCall.run calls {}
    ∃ (total : Usage) (usage : Category → Usage) (summary : List (Category × Usage)),
      t.total = .ok total ∧ (∀ c, t.usage c = .ok (usage c)) ∧ t.summary = .ok summary ∧
      total.Counts t.regions.values ∧
      (∀ c, (usage c).Counts (t.regions.values.filter (·.category = c))) ∧
      total.reserved.toNat = (Category.all.map fun c => (usage c).reserved.toNat).sum ∧
      total.committed.toNat = (Category.all.map fun c => (usage c).committed.toNat).sum ∧
      total.committed ≤ total.reserved ∧ (∀ c, (usage c).committed ≤ (usage c).reserved) ∧
      summary.Pairwise (fun x y => x.1.index < y.1.index) ∧
      ∀ c u, (c, u) ∈ summary ↔ u = usage c ∧ 0 < u.reserved := by
  intro t
  have h : t.Shaped 0 := shaped_run calls
  have hregions : ∀ r ∈ t.regions.values, r.Shaped 0 := fun r hr => by
    obtain ⟨e, he, rfl⟩ := List.mem_map.1 hr
    exact h.regions e he
  have hdisjoint : t.regions.values.Pairwise fun r r' => r.finish ≤ r'.base :=
    List.pairwise_map.2 h.disjoint
  have hown (c : Category) : ∀ r ∈ t.regions.values.filter (·.category = c), r.Shaped 0 :=
    fun r hr => hregions r (List.mem_of_mem_filter hr)
  obtain ⟨total, htotal, hcounts, hreserved, hcommitted⟩ := Usage.sum_eq_ok hregions hdisjoint
  choose usage husage hcount hreserved' hcommitted' using fun c =>
    Usage.sum_eq_ok (hown c) (hdisjoint.filter _)
  refine ⟨total, usage, _, htotal, husage, summary_eq_ok husage, hcounts, hcount, ?_, ?_, ?_,
    fun c => ?_, Usage.pairwise_used usage, fun c u => Usage.mem_used⟩
  · simp only [hreserved, hreserved', Usage.sum_categories]
  · simp only [hcommitted, hcommitted', Usage.sum_categories]
  · rw [UInt64.le_iff_toNat_le, hreserved, hcommitted]
    exact Usage.sum_committed_le hregions
  · rw [UInt64.le_iff_toNat_le, hreserved', hcommitted']
    exact Usage.sum_committed_le (hown c)

end Tracker

end HostServices
