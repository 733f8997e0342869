import HostServices.Proofs.Region.Ranges
import HostServices.Tracker

/-!
# Regions as sets of bytes

A region stands for a `Holding`: the bytes it holds and, of these, the committed ones. On a region
that is well formed, committing, uncommitting and cutting are the set operations on its holding
(`holding_commit`, `holding_uncommit`, `exists_remains_iff`), and leave it well formed. All of this is
stated for regions of a form (`Shaped`) that leaves open whether committed ranges have gaps between
them.
-/

namespace HostServices

/-- Reserved bytes, whose they are, and which of them are committed. -/
structure Holding where
  bytes : Set ℕ
  category : Category
  site : CallSite
  committed : Set ℕ

namespace Holding

/-- The part of a holding in `s`. -/
def only (s : Set ℕ) (k : Holding) : Holding :=
  { k with bytes := k.bytes ∩ s, committed := k.committed ∩ s }

/-- The holding with some of its bytes committed. -/
def commit (s : Set ℕ) (k : Holding) : Holding :=
  { k with committed := k.committed ∪ (k.bytes ∩ s) }

/-- The holding without some of its commits. -/
def uncommit (s : Set ℕ) (k : Holding) : Holding :=
  { k with committed := k.committed \ s }

/-- What is left of a holding beside `[start, stop)`. -/
def beside (start stop : ℕ) (k : Holding) : Set Holding :=
  {p | (p = k.only (Set.Iio start) ∨ p = k.only (Set.Ici stop)) ∧ p.bytes.Nonempty}

theorem only_eq {k : Holding} {s s' : Set ℕ} (hc : k.committed ⊆ k.bytes)
    (h : k.bytes ∩ s = k.bytes ∩ s') : k.only s = k.only s' := by
  have hc' : k.committed ∩ s = k.committed ∩ s' := by
    rw [← Set.inter_eq_left.2 hc, Set.inter_assoc, h, ← Set.inter_assoc]
  rw [only, only, h, hc']

theorem only_eq_self {k : Holding} {s : Set ℕ} (hc : k.committed ⊆ k.bytes) (h : k.bytes ⊆ s) :
    k.only s = k := by
  rw [only, Set.inter_eq_left.2 h, Set.inter_eq_left.2 (hc.trans h)]

end Holding

namespace Region

/-- A region that is not empty and ends below the top, with committed ranges that are apart and lie
inside it. -/
structure WellFormed (r : Region) : Prop where
  fits : r.base.toNat + r.size.toNat < 2 ^ 64
  size_pos : 0 < r.size
  apart : Apart r.committed
  within : ∀ x ∈ r.ranges, r.base ≤ x.1 ∧ x.2 ≤ r.finish

/-- A region that is not empty and ends below the top, with committed ranges that are spaced and lie
inside it. -/
structure Shaped (gap : ℕ) (r : Region) : Prop where
  fits : r.base.toNat + r.size.toNat < 2 ^ 64
  size_pos : 0 < r.size
  spaced : Spaced gap r.committed
  within : ∀ x ∈ r.ranges, r.base ≤ x.1 ∧ x.2 ≤ r.finish

theorem wellFormed_iff {r : Region} : r.WellFormed ↔ r.Shaped 1 :=
  ⟨fun h => ⟨h.fits, h.size_pos, apart_iff.1 h.apart, h.within⟩,
    fun h => ⟨h.fits, h.size_pos, apart_iff.2 h.spaced, h.within⟩⟩

theorem WellFormed.shaped {r : Region} (h : r.WellFormed) : r.Shaped 1 :=
  wellFormed_iff.1 h

/-- What a region stands for. -/
def holding (r : Region) : Holding where
  bytes := Set.Ico r.base.toNat r.finish.toNat
  category := r.category
  site := r.site
  committed := covered r.committed

variable {gap : ℕ} {r : Region} {start stop : UInt64}

namespace Shaped

theorem toNat_finish (h : r.Shaped gap) : r.finish.toNat = r.base.toNat + r.size.toNat :=
  Word.toNat_add_of_lt h.fits

theorem base_lt_finish (h : r.Shaped gap) : r.base.toNat < r.finish.toNat := by
  have := UInt64.lt_iff_toNat_lt.1 h.size_pos
  have := h.toNat_finish
  simp only [UInt64.toNat_zero] at *
  omega

theorem covered_subset (h : r.Shaped gap) : covered r.committed ⊆ r.holding.bytes := by
  rintro a ⟨x, hx, hxa⟩
  obtain ⟨hlo, hhi⟩ := h.within x hx
  have := UInt64.le_iff_toNat_le.1 hlo
  have := UInt64.le_iff_toNat_le.1 hhi
  exact ⟨by omega, by omega⟩

/-- Ranges that are spaced and cover bytes of a region only give it its form. -/
theorem of_covered (hfits : r.base.toNat + r.size.toNat < 2 ^ 64) (hpos : 0 < r.size)
    (hspaced : Spaced gap r.committed) (hsub : covered r.committed ⊆ r.holding.bytes) :
    r.Shaped gap where
  fits := hfits
  size_pos := hpos
  spaced := hspaced
  within x hx := by
    obtain ⟨hlo, hhi⟩ := hspaced.bounds hsub hx
    exact ⟨UInt64.le_iff_toNat_le.2 hlo, UInt64.le_iff_toNat_le.2 hhi⟩

theorem with_committed (h : r.Shaped gap) {m : AddressMap UInt64} (hspaced : Spaced gap m)
    (hsub : covered m ⊆ r.holding.bytes) : { r with committed := m }.Shaped gap :=
  .of_covered (r := { r with committed := m }) h.fits h.size_pos hspaced hsub

end Shaped

theorem contains_iff {a : UInt64} : r.contains a = true ↔ a.toNat ∈ r.holding.bytes := by
  simp [contains, holding, UInt64.le_iff_toNat_le, UInt64.lt_iff_toNat_lt]

theorem Shaped.isCommitted_iff (h : r.Shaped gap) {a : UInt64} :
    r.isCommitted a = true ↔ a.toNat ∈ r.holding.committed :=
  Region.isCommitted_iff h.spaced

theorem mem_committed_iff (h : r.WellFormed) {a : UInt64} :
    r.isCommitted a = true ↔ a.toNat ∈ r.holding.committed :=
  h.shaped.isCommitted_iff

/-! ## Committing and uncommitting -/

theorem base_commit : (r.commit start stop).base = r.base := by
  unfold commit
  split <;> rfl

theorem finish_commit : (r.commit start stop).finish = r.finish := by
  unfold commit
  split <;> rfl

theorem holding_commit (h : r.Shaped gap) (start stop : UInt64) :
    (r.commit start stop).holding = r.holding.commit (Set.Ico start.toNat stop.toNat) := by
  have hinter : r.holding.bytes ∩ Set.Ico start.toNat stop.toNat =
      Set.Ico (max start.toNat r.base.toNat) (min stop.toNat r.finish.toNat) := by
    rw [holding, Set.Ico_inter_Ico, max_comm, min_comm]
  rw [commit, Holding.commit, hinter]
  cases hc : r.clip start stop with
  | none =>
    rw [Set.Ico_eq_empty_of_le (clip_eq_none hc), Set.union_empty]
  | some x =>
    obtain ⟨hlo, hhi, hlt⟩ := clip_eq_some hc
    rw [← hlo, ← hhi, show r.holding.committed = covered r.committed from rfl,
      ← covered_merge h.spaced hlt]
    rfl

theorem Shaped.commit (h : r.Shaped gap) (hgap : gap ≤ 1) (start stop : UInt64) :
    (r.commit start stop).Shaped gap := by
  have hh := holding_commit h start stop
  unfold Region.commit at hh ⊢
  cases hc : r.clip start stop with
  | none => exact h
  | some x =>
    rw [hc] at hh
    refine h.with_committed (spaced_merge h.spaced hgap (clip_eq_some hc).2.2) ?_
    have hcov := congrArg Holding.committed hh
    rw [show covered (merge r.committed x.1 x.2) = _ from hcov]
    exact Set.union_subset h.covered_subset Set.inter_subset_left

theorem holding_uncommit (h : r.Shaped gap) (hgap : start.toNat + gap ≤ stop.toNat) :
    (r.uncommit start stop).holding = r.holding.uncommit (Set.Ico start.toNat stop.toNat) := by
  rw [uncommit_eq, Holding.uncommit, show r.holding.committed = covered r.committed from rfl,
    ← covered_cutOut h.spaced hgap]
  rfl

theorem Shaped.uncommit (h : r.Shaped gap) (hgap : start.toNat + gap ≤ stop.toNat) :
    (r.uncommit start stop).Shaped gap := by
  rw [uncommit_eq]
  refine h.with_committed (spaced_cutOut h.spaced hgap) ?_
  rw [covered_cutOut h.spaced hgap]
  exact Set.sdiff_subset.trans h.covered_subset

/-! ## Cutting -/

/-- A slice is of the form of its region, stands for the part of the holding that was asked for, and
lies inside the region. -/
theorem slice_eq_some (h : r.Shaped gap) {p : Region} (hp : r.slice start stop = some p) :
    p.Shaped gap ∧ p.holding = r.holding.only (Set.Ico start.toNat stop.toNat) ∧
      p.base.toNat = max start.toNat r.base.toNat ∧
      p.finish.toNat = min stop.toNat r.finish.toNat := by
  rw [slice_eq, Option.map_eq_some_iff] at hp
  obtain ⟨x, hx, rfl⟩ := hp
  obtain ⟨hlo, hhi, hlt⟩ := clip_eq_some hx
  have hsize : (x.2 - x.1).toNat = x.2.toNat - x.1.toNat := Word.toNat_sub_of_le (by omega)
  have hfin : (r.part x.1 x.2).finish.toNat = x.2.toNat := by
    show (x.1 + (x.2 - x.1)).toNat = x.2.toNat
    have := x.2.toNat_lt
    rw [Word.toNat_add_of_lt] <;> omega
  have hbytes : Set.Ico x.1.toNat x.2.toNat =
      r.holding.bytes ∩ Set.Ico start.toNat stop.toNat := by
    rw [hlo, hhi, holding, Set.Ico_inter_Ico, max_comm, min_comm]
  have hcov : covered (inside r.committed x.1 x.2) =
      covered r.committed ∩ Set.Ico start.toNat stop.toNat := by
    rw [covered_inside h.spaced, hbytes, ← Set.inter_assoc, Set.inter_eq_left.2 h.covered_subset]
  have hholding : (r.part x.1 x.2).holding =
      r.holding.only (Set.Ico start.toNat stop.toNat) := by
    rw [Holding.only, ← hbytes, show r.holding.committed = covered r.committed from rfl, ← hcov,
      ← hfin]
    rfl
  refine ⟨.of_covered ?_ ?_ (spaced_inside h.spaced) ?_, hholding, hlo, hfin.trans hhi⟩
  · show x.1.toNat + (x.2 - x.1).toNat < 2 ^ 64
    have := x.2.toNat_lt
    omega
  · exact UInt64.lt_iff_toNat_lt.2 (by
      show (0 : UInt64).toNat < (x.2 - x.1).toNat
      rw [hsize, UInt64.toNat_zero]; omega)
  · rw [hholding]
    show covered (inside r.committed x.1 x.2) ⊆ r.holding.bytes ∩ _
    rw [hcov]
    exact Set.inter_subset_inter_left _ h.covered_subset

theorem slice_eq_none (hp : r.slice start stop = none) :
    r.holding.bytes ∩ Set.Ico start.toNat stop.toNat = ∅ := by
  rw [slice_eq, Option.map_eq_none_iff] at hp
  have := clip_eq_none hp
  rw [holding, Set.Ico_inter_Ico]
  exact Set.Ico_eq_empty_of_le (by omega)

theorem Shaped.bytes_nonempty (h : r.Shaped gap) : r.holding.bytes.Nonempty :=
  Set.nonempty_Ico.2 h.base_lt_finish

theorem mem_remains_iff {p : Region} :
    p ∈ Tracker.remains start stop r ↔
      r.slice r.base start = some p ∨ r.slice stop r.finish = some p := by
  rw [Tracker.remains, List.mem_append, Option.mem_toList, Option.mem_toList]

/-- The part of a region below an address, as the slice that holds it. -/
theorem only_Iio (h : r.Shaped gap) (start : UInt64) :
    r.holding.only (Set.Ico r.base.toNat start.toNat) = r.holding.only (Set.Iio start.toNat) :=
  Holding.only_eq h.covered_subset (by
    ext a
    simp only [holding, Set.mem_inter_iff, Set.mem_Ico, Set.mem_Iio]
    omega)

/-- The part of a region from an address on, as the slice that holds it. -/
theorem only_Ici (h : r.Shaped gap) (stop : UInt64) :
    r.holding.only (Set.Ico stop.toNat r.finish.toNat) = r.holding.only (Set.Ici stop.toNat) :=
  Holding.only_eq h.covered_subset (by
    ext a
    simp only [holding, Set.mem_inter_iff, Set.mem_Ico, Set.mem_Ici]
    omega)

/-- A region that is left of another lies inside it. -/
structure IsRemains (gap : ℕ) (r p : Region) : Prop where
  shaped : p.Shaped gap
  base_le : r.base.toNat ≤ p.base.toNat
  finish_le : p.finish.toNat ≤ r.finish.toNat

theorem isRemains (h : r.Shaped gap) {p : Region} (hp : p ∈ Tracker.remains start stop r) :
    r.IsRemains gap p := by
  rcases mem_remains_iff.1 hp with hp | hp <;> obtain ⟨hwf, -, hlo, hhi⟩ := slice_eq_some h hp
  · exact ⟨hwf, by omega, by omega⟩
  · exact ⟨hwf, by omega, by omega⟩

/-- Two regions that are left of one lie on both sides of what was taken away. -/
theorem remains_eq_or_beside (h : r.Shaped gap) (hle : start.toNat ≤ stop.toNat) {p p' : Region}
    (hp : p ∈ Tracker.remains start stop r) (hp' : p' ∈ Tracker.remains start stop r) :
    p = p' ∨ p.finish.toNat ≤ p'.base.toNat ∨ p'.finish.toNat ≤ p.base.toNat := by
  rcases mem_remains_iff.1 hp with hp | hp <;> rcases mem_remains_iff.1 hp' with hp' | hp' <;>
    obtain ⟨-, -, hlo, hhi⟩ := slice_eq_some h hp <;>
    obtain ⟨-, -, hlo', hhi'⟩ := slice_eq_some h hp'
  · exact .inl (Option.some.inj (hp.symm.trans hp'))
  · exact .inr (.inl (by omega))
  · exact .inr (.inr (by omega))
  · exact .inl (Option.some.inj (hp.symm.trans hp'))

/-- The regions that are left stand for what is left of the holding. -/
theorem exists_remains_iff (h : r.Shaped gap) {k : Holding} :
    (∃ p ∈ Tracker.remains start stop r, p.holding = k) ↔
      k ∈ r.holding.beside start.toNat stop.toNat := by
  simp only [mem_remains_iff, Holding.beside, Set.mem_ofPred_eq]
  constructor
  · rintro ⟨p, hp | hp, rfl⟩ <;> obtain ⟨hwf, hk, -, -⟩ := slice_eq_some h hp
    · exact ⟨.inl (hk.trans (only_Iio h start)), hwf.bytes_nonempty⟩
    · exact ⟨.inr (hk.trans (only_Ici h stop)), hwf.bytes_nonempty⟩
  · rintro ⟨rfl | rfl, hne⟩
    · rw [← only_Iio h start] at hne ⊢
      cases hp : r.slice r.base start with
      | none => exact absurd (slice_eq_none hp) hne.ne_empty
      | some p => exact ⟨p, .inl rfl, (slice_eq_some h hp).2.1⟩
    · rw [← only_Ici h stop] at hne ⊢
      cases hp : r.slice stop r.finish with
      | none => exact absurd (slice_eq_none hp) hne.ne_empty
      | some p => exact ⟨p, .inr rfl, (slice_eq_some h hp).2.1⟩

end Region

end HostServices
