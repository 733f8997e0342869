import HostServices.Proofs.AddressMap
import HostServices.Proofs.Word
import HostServices.Region
import Mathlib.Data.Set.Basic
import Mathlib.Order.Interval.Set.LinearOrder

/-!
# Committed ranges

Ranges are kept apart (`Apart`): none is empty, and two of them have a gap between them. An empty
range that is cut out leaves no gap, so what all edits keep is `Spaced`, for gaps of any least length
up to one. Then the search for the ranges near an address finds all of them, and the bytes covered
after an edit are those of a set operation: `covered_merge`, `covered_cutOut`, `covered_inside`, each
with the statement that the edit leaves the ranges spaced.
-/

namespace HostServices.Region

/-- Ranges that are not empty, with a gap between any two. -/
structure Apart (m : AddressMap UInt64) : Prop where
  nonempty : ∀ x ∈ m.toList, x.1 < x.2
  gap : m.toList.Pairwise fun x y => x.2 < y.1

/-- Ranges that are not empty, each of them `gap` addresses or more behind the one before. -/
structure Spaced (gap : ℕ) (m : AddressMap UInt64) : Prop where
  nonempty : ∀ x ∈ m.toList, x.1.toNat < x.2.toNat
  next : m.toList.Pairwise fun x y => x.2.toNat + gap ≤ y.1.toNat

theorem apart_iff {m : AddressMap UInt64} : Apart m ↔ Spaced 1 m :=
  ⟨fun h => ⟨fun x hx => UInt64.lt_iff_toNat_lt.1 (h.nonempty x hx),
      h.gap.imp UInt64.lt_iff_toNat_lt.1⟩,
    fun h => ⟨fun x hx => UInt64.lt_iff_toNat_lt.2 (h.nonempty x hx),
      h.next.imp UInt64.lt_iff_toNat_lt.2⟩⟩

/-- The addresses that some ranges cover. -/
def covered (m : AddressMap UInt64) : Set ℕ :=
  {a | ∃ x ∈ m.toList, x.1.toNat ≤ a ∧ a < x.2.toNat}

theorem mem_covered {m : AddressMap UInt64} {a : ℕ} :
    a ∈ covered m ↔ ∃ x ∈ m.toList, x.1.toNat ≤ a ∧ a < x.2.toNat :=
  Iff.rfl

theorem spaced_empty {gap : ℕ} : Spaced gap .empty where
  nonempty _ hx := absurd hx AddressMap.mem_empty
  next := List.Pairwise.nil

theorem covered_empty : covered .empty = ∅ :=
  Set.eq_empty_of_forall_notMem fun _ ⟨_, hx, _⟩ => AddressMap.mem_empty hx

namespace Spaced

variable {gap : ℕ} {m : AddressMap UInt64} {x y : UInt64 × UInt64}

/-- Of two ranges, one ends before the other starts. -/
theorem eq_or_gap (h : Spaced gap m) (hx : x ∈ m.toList) (hy : y ∈ m.toList) :
    x = y ∨ x.2.toNat + gap ≤ y.1.toNat ∨ y.2.toNat + gap ≤ x.1.toNat := by
  have next := AddressMap.pairwise_iff.1 h.next
  rcases Nat.lt_trichotomy x.1.toNat y.1.toNat with hlt | heq | hlt
  · exact .inr (.inl (next x hx y hy (UInt64.lt_iff_toNat_lt.2 hlt)))
  · exact .inl (AddressMap.eq_of_mem hx hy (UInt64.toNat_inj.1 heq))
  · exact .inr (.inr (next y hy x hx (UInt64.lt_iff_toNat_lt.2 hlt)))

/-- Ranges are spaced if each two of them are. -/
theorem of_mem (hne : ∀ x ∈ m.toList, x.1.toNat < x.2.toNat)
    (hgap : ∀ x ∈ m.toList, ∀ y ∈ m.toList,
      x = y ∨ x.2.toNat + gap ≤ y.1.toNat ∨ y.2.toNat + gap ≤ x.1.toNat) : Spaced gap m where
  nonempty := hne
  next := AddressMap.pairwise_iff.2 fun x hx y hy hlt => by
    have hlt := UInt64.lt_iff_toNat_lt.1 hlt
    have := hne y hy
    rcases hgap x hx y hy with rfl | h | h
    · exact absurd hlt (Nat.lt_irrefl _)
    · exact h
    · omega

/-- Ranges that reach beyond an address lie above those that do not. -/
theorem upward (h : Spaced gap m) {p : UInt64 → Bool}
    (hp : ∀ e e' : UInt64, e.toNat < e'.toNat → p e = true → p e' = true) :
    m.Upward fun x => p x.2 := by
  intro x hx y hy hlt hpx
  have hxy := AddressMap.pairwise_iff.1 h.next x hx y hy hlt
  have := h.nonempty y hy
  exact hp _ _ (by omega) hpx

/-- All of the ranges lie between two addresses if what they cover does. -/
theorem bounds (h : Spaced gap m) {lo hi : ℕ} (hsub : covered m ⊆ Set.Ico lo hi) (hx : x ∈ m.toList) :
    lo ≤ x.1.toNat ∧ x.2.toNat ≤ hi := by
  have hlt := h.nonempty x hx
  have h₁ := hsub (mem_covered.2 ⟨x, hx, Nat.le_refl _, hlt⟩)
  have h₂ := hsub (mem_covered.2 ⟨x, hx, Nat.le_sub_one_of_lt hlt, by omega⟩)
  exact ⟨h₁.1, by have := h₂.2; omega⟩

end Spaced

/-! ## Searching -/

theorem isCommitted_iff {gap : ℕ} {r : Region} (h : Spaced gap r.committed) {a : UInt64} :
    r.isCommitted a = true ↔ a.toNat ∈ covered r.committed := by
  have near : ((r.committed.upTo a).head?.any fun x => decide (a < x.2)) = true ↔
      ∃ x, (r.committed.upTo a).head?.filter (fun x => decide (a < x.2)) = some x := by
    simp only [Option.any_eq_true, Option.filter_eq_some_iff]
  have search (x : UInt64 × UInt64) :
      (r.committed.upTo a).head?.filter (fun x => decide (a < x.2)) = some x ↔
        x ∈ r.committed.toList ∧ x.1 ≤ a ∧ decide (a < x.2) = true :=
    AddressMap.head?_upTo_filter fun x hx _ hax y hy hxy => by
      have hxy := AddressMap.pairwise_iff.1 h.next x hx y hy hxy
      have hax := UInt64.lt_iff_toNat_lt.1 (of_decide_eq_true hax)
      exact UInt64.lt_iff_toNat_lt.2 (by omega)
  show ((r.committed.upTo a).head?.any fun x => decide (a < x.2)) = true ↔ _
  rw [near]
  simp only [search, decide_eq_true_eq]
  simp only [mem_covered, UInt64.le_iff_toNat_le, UInt64.lt_iff_toNat_lt]

/-! ## Committing -/

section merge

variable {gap : ℕ} {m : AddressMap UInt64} {start stop : UInt64}

/-- The ranges that overlap or touch `[start, stop)`. -/
def touching (m : AddressMap UInt64) (start stop : UInt64) : List (UInt64 × UInt64) :=
  (m.upTo stop).takeWhile fun x => start ≤ x.2

/-- The least of `start` and the starts of some ranges. -/
def lowest (start : UInt64) (l : List (UInt64 × UInt64)) : UInt64 :=
  l.foldl (fun lo x => Word.min lo x.1) start

/-- The greatest of `stop` and the ends of some ranges. -/
def highest (stop : UInt64) (l : List (UInt64 × UInt64)) : UInt64 :=
  l.foldl (fun hi x => Word.max hi x.2) stop

theorem merge_eq (m : AddressMap UInt64) (start stop : UInt64) :
    merge m start stop = (m.eraseAll ((touching m start stop).map (·.1))).insert
      (lowest start (touching m start stop)) (highest stop (touching m start stop)) :=
  rfl

theorem lowest_spec (start : UInt64) (l : List (UInt64 × UInt64)) :
    (lowest start l).toNat ≤ start.toNat ∧ (∀ x ∈ l, (lowest start l).toNat ≤ x.1.toNat) ∧
      (lowest start l = start ∨ ∃ x ∈ l, lowest start l = x.1) := by
  induction l generalizing start with
  | nil => simp [lowest]
  | cons x xs ih =>
    obtain ⟨hle, hall, hex⟩ := ih (Word.min start x.1)
    have hmin := Word.toNat_min start x.1
    rw [show lowest start (x :: xs) = lowest (Word.min start x.1) xs from rfl]
    refine ⟨by omega, fun y hy => ?_, ?_⟩
    · rcases List.mem_cons.1 hy with rfl | hy
      · omega
      · exact hall y hy
    · rcases hex with h | ⟨y, hy, h⟩
      · rw [h]
        unfold Word.min
        split
        · exact .inl rfl
        · exact .inr ⟨x, List.mem_cons_self, rfl⟩
      · exact .inr ⟨y, List.mem_cons_of_mem _ hy, h⟩

theorem highest_spec (stop : UInt64) (l : List (UInt64 × UInt64)) :
    stop.toNat ≤ (highest stop l).toNat ∧ (∀ x ∈ l, x.2.toNat ≤ (highest stop l).toNat) ∧
      (highest stop l = stop ∨ ∃ x ∈ l, highest stop l = x.2) := by
  induction l generalizing stop with
  | nil => simp [highest]
  | cons x xs ih =>
    obtain ⟨hle, hall, hex⟩ := ih (Word.max stop x.2)
    have hmax := Word.toNat_max stop x.2
    rw [show highest stop (x :: xs) = highest (Word.max stop x.2) xs from rfl]
    refine ⟨by omega, fun y hy => ?_, ?_⟩
    · rcases List.mem_cons.1 hy with rfl | hy
      · omega
      · exact hall y hy
    · rcases hex with h | ⟨y, hy, h⟩
      · rw [h]
        unfold Word.max
        split
        · exact .inr ⟨x, List.mem_cons_self, rfl⟩
        · exact .inl rfl
      · exact .inr ⟨y, List.mem_cons_of_mem _ hy, h⟩

theorem mem_touching (h : Spaced gap m) {x : UInt64 × UInt64} :
    x ∈ touching m start stop ↔
      x ∈ m.toList ∧ x.1.toNat ≤ stop.toNat ∧ start.toNat ≤ x.2.toNat := by
  have up := h.upward (p := fun e => decide (start ≤ e)) fun e e' hlt he =>
    decide_eq_true (UInt64.le_iff_toNat_le.2
      (Nat.le_of_lt (Nat.lt_of_le_of_lt (UInt64.le_iff_toNat_le.1 (of_decide_eq_true he)) hlt)))
  rw [touching, AddressMap.mem_takeWhile_upTo up, decide_eq_true_eq, UInt64.le_iff_toNat_le,
    UInt64.le_iff_toNat_le]

/-- A range after a merge is the widened one or an old one beyond reach of the new. -/
theorem mem_merge (h : Spaced gap m) (hlt : start.toNat < stop.toNat) {x : UInt64 × UInt64} :
    x ∈ (merge m start stop).toList ↔
      x = (lowest start (touching m start stop), highest stop (touching m start stop)) ∨
        x ∈ m.toList ∧ (stop.toNat < x.1.toNat ∨ x.2.toNat < start.toNat) := by
  have keyed : x ∈ m.toList → (x.1 ∈ (touching m start stop).map (·.1) ↔
      x ∈ touching m start stop) := fun hx => by
    refine ⟨fun hk => ?_, fun ht => List.mem_map_of_mem ht⟩
    obtain ⟨y, hy, hyx⟩ := List.mem_map.1 hk
    exact AddressMap.eq_of_mem ((mem_touching h).1 hy).1 hx hyx ▸ hy
  rw [merge_eq, AddressMap.mem_insert, AddressMap.mem_eraseAll]
  refine or_congr_right ⟨fun ⟨⟨hx, hk⟩, _⟩ => ⟨hx, ?_⟩, fun ⟨hx, hfar⟩ => ?_⟩
  · rw [keyed hx, mem_touching h] at hk
    by_contra hcon
    exact hk ⟨hx, by omega, by omega⟩
  · have hnot : x ∉ touching m start stop := fun ht => by
      have := (mem_touching h).1 ht
      omega
    refine ⟨⟨hx, fun hk => hnot ((keyed hx).1 hk)⟩, fun hlow => ?_⟩
    obtain ⟨hle, -, heq | ⟨y, hy, heq⟩⟩ := lowest_spec start (touching m start stop)
    · -- a range that starts where the new one does reaches it
      have := h.nonempty x hx
      have := congrArg UInt64.toNat (hlow.trans heq)
      omega
    · exact hnot (AddressMap.eq_of_mem hx ((mem_touching h).1 hy).1 (hlow.trans heq) ▸ hy)

/-- The widened range keeps its distance to each range beyond reach of the new. -/
theorem widened_gap (h : Spaced gap m) (hgap : gap ≤ 1) {x : UInt64 × UInt64} (hx : x ∈ m.toList)
    (hfar : stop.toNat < x.1.toNat ∨ x.2.toNat < start.toNat) :
    x.2.toNat + gap ≤ (lowest start (touching m start stop)).toNat ∨
      (highest stop (touching m start stop)).toNat + gap ≤ x.1.toNat := by
  have hxlt := h.nonempty x hx
  rcases hfar with hfar | hfar
  · right
    obtain ⟨-, -, heq | ⟨y, hy, heq⟩⟩ := highest_spec stop (touching m start stop)
    · rw [heq]; omega
    · obtain ⟨hy, hle, -⟩ := (mem_touching h).1 hy
      have := h.nonempty y hy
      rw [heq]
      rcases h.eq_or_gap hx hy with rfl | hg | hg <;> omega
  · left
    obtain ⟨-, -, heq | ⟨y, hy, heq⟩⟩ := lowest_spec start (touching m start stop)
    · rw [heq]; omega
    · obtain ⟨hy, -, hle⟩ := (mem_touching h).1 hy
      have := h.nonempty y hy
      rw [heq]
      rcases h.eq_or_gap hx hy with rfl | hg | hg <;> omega

theorem spaced_merge (h : Spaced gap m) (hgap : gap ≤ 1) (hlt : start.toNat < stop.toNat) :
    Spaced gap (merge m start stop) := by
  obtain ⟨hlow, -⟩ := lowest_spec start (touching m start stop)
  obtain ⟨hhigh, -⟩ := highest_spec stop (touching m start stop)
  refine .of_mem (fun x hx => ?_) fun x hx y hy => ?_
  · rcases (mem_merge h hlt).1 hx with rfl | ⟨hx, -⟩
    · show (lowest start _).toNat < (highest stop _).toNat
      omega
    · exact h.nonempty x hx
  · rcases (mem_merge h hlt).1 hx with rfl | ⟨hx, hxfar⟩ <;>
      rcases (mem_merge h hlt).1 hy with rfl | ⟨hy, hyfar⟩
    · exact .inl rfl
    · exact .inr (widened_gap h hgap hy hyfar).symm
    · exact .inr (widened_gap h hgap hx hxfar)
    · exact h.eq_or_gap hx hy

theorem covered_merge (h : Spaced gap m) (hlt : start.toNat < stop.toNat) :
    covered (merge m start stop) = covered m ∪ Set.Ico start.toNat stop.toNat := by
  obtain ⟨hlow, hlows, hlowest⟩ := lowest_spec start (touching m start stop)
  obtain ⟨hhigh, hhighs, hhighest⟩ := highest_spec stop (touching m start stop)
  ext a
  rw [Set.mem_union, mem_covered, mem_covered, Set.mem_Ico]
  constructor
  · rintro ⟨x, hx, hxa⟩
    rcases (mem_merge h hlt).1 hx with rfl | ⟨hx, -⟩
    · -- beyond the new range, the widened one ends with an old one that reaches the new
      change (lowest start _).toNat ≤ a ∧ a < (highest stop _).toNat at hxa
      by_cases hnew : start.toNat ≤ a ∧ a < stop.toNat
      · exact .inr hnew
      left
      rcases Nat.lt_or_ge a start.toNat with ha | ha
      · rcases hlowest with heq | ⟨y, hy, heq⟩
        · rw [heq] at hxa; omega
        · obtain ⟨hym, -, hle⟩ := (mem_touching h).1 hy
          rw [heq] at hxa
          exact ⟨y, hym, hxa.1, by omega⟩
      · rcases hhighest with heq | ⟨y, hy, heq⟩
        · rw [heq] at hxa; omega
        · obtain ⟨hym, hle, -⟩ := (mem_touching h).1 hy
          rw [heq] at hxa
          exact ⟨y, hym, by omega, hxa.2⟩
    · exact .inl ⟨x, hx, hxa⟩
  · rintro (⟨x, hx, hxa⟩ | hnew)
    · by_cases hfar : stop.toNat < x.1.toNat ∨ x.2.toNat < start.toNat
      · exact ⟨x, (mem_merge h hlt).2 (.inr ⟨hx, hfar⟩), hxa⟩
      · have ht : x ∈ touching m start stop := (mem_touching h).2 ⟨hx, by omega, by omega⟩
        have h₁ := hlows x ht
        have h₂ := hhighs x ht
        exact ⟨_, (mem_merge h hlt).2 (.inl rfl), Nat.le_trans h₁ hxa.1, Nat.lt_of_lt_of_le hxa.2 h₂⟩
    · exact ⟨_, (mem_merge h hlt).2 (.inl rfl), Nat.le_trans hlow hnew.1,
        Nat.lt_of_lt_of_le hnew.2 hhigh⟩

end merge

/-! ## Uncommitting -/

section cutOut

variable {gap : ℕ} {m : AddressMap UInt64} {start stop : UInt64}

/-- The ranges that overlap `[start, stop)`. -/
def hit (m : AddressMap UInt64) (start stop : UInt64) : List (UInt64 × UInt64) :=
  (m.below stop).takeWhile fun x => start < x.2

/-- What is left of some ranges without `[start, stop)`. -/
def cutOut (m : AddressMap UInt64) (start stop : UInt64) : AddressMap UInt64 :=
  (m.eraseAll ((hit m start stop).map (·.1))).insertAll
    ((hit m start stop).flatMap fun x => remains start stop x.1 x.2)

theorem uncommit_eq (r : Region) (start stop : UInt64) :
    r.uncommit start stop = { r with committed := cutOut r.committed start stop } :=
  rfl

/-- `x` is a part of the range `y` that `[start, stop)` leaves. -/
def Piece (start stop : UInt64) (y x : UInt64 × UInt64) : Prop :=
  x = y ∧ (stop.toNat ≤ y.1.toNat ∨ y.2.toNat ≤ start.toNat) ∨
    y.1.toNat < stop.toNat ∧ start.toNat < y.2.toNat ∧
      (y.1.toNat < start.toNat ∧ x = (y.1, start) ∨ stop.toNat < y.2.toNat ∧ x = (stop, y.2))

theorem Piece.within {x y : UInt64 × UInt64} (h : Piece start stop y x) :
    y.1.toNat ≤ x.1.toNat ∧ x.2.toNat ≤ y.2.toNat := by
  rcases h with ⟨rfl, -⟩ | ⟨h₁, h₂, ⟨-, rfl⟩ | ⟨-, rfl⟩⟩
  · exact ⟨Nat.le_refl _, Nat.le_refl _⟩
  · exact ⟨Nat.le_refl _, Nat.le_of_lt h₂⟩
  · exact ⟨Nat.le_of_lt h₁, Nat.le_refl _⟩

theorem Piece.nonempty {x y : UInt64 × UInt64} (h : Piece start stop y x)
    (hy : y.1.toNat < y.2.toNat) : x.1.toNat < x.2.toNat := by
  rcases h with ⟨rfl, -⟩ | ⟨-, -, ⟨hs, rfl⟩ | ⟨he, rfl⟩⟩
  · exact hy
  · exact hs
  · exact he

/-- Two pieces of one range lie on both sides of what is cut out. -/
theorem Piece.eq_or_gap {x x' y : UInt64 × UInt64} (h : Piece start stop y x)
    (h' : Piece start stop y x') (hgap : start.toNat + gap ≤ stop.toNat) :
    x = x' ∨ x.2.toNat + gap ≤ x'.1.toNat ∨ x'.2.toNat + gap ≤ x.1.toNat := by
  rcases h with ⟨rfl, hside⟩ | ⟨h₁, h₂, ⟨-, rfl⟩ | ⟨-, rfl⟩⟩ <;>
    rcases h' with ⟨rfl, hside'⟩ | ⟨h₁', h₂', ⟨-, rfl⟩ | ⟨-, rfl⟩⟩
  · exact .inl rfl
  · omega
  · omega
  · omega
  · exact .inl rfl
  · exact .inr (.inl hgap)
  · omega
  · exact .inr (.inr hgap)
  · exact .inl rfl

/-- The bytes of the pieces of a range are its bytes outside `[start, stop)`. -/
theorem exists_piece_iff {y : UInt64 × UInt64} {a : ℕ} :
    (∃ x, Piece start stop y x ∧ x.1.toNat ≤ a ∧ a < x.2.toNat) ↔
      (y.1.toNat ≤ a ∧ a < y.2.toNat) ∧ ¬ (start.toNat ≤ a ∧ a < stop.toNat) := by
  constructor
  · rintro ⟨x, ⟨rfl, hside⟩ | ⟨h₁, h₂, ⟨-, rfl⟩ | ⟨-, rfl⟩⟩, hxa⟩
    · omega
    · change y.1.toNat ≤ a ∧ a < start.toNat at hxa
      omega
    · change stop.toNat ≤ a ∧ a < y.2.toNat at hxa
      omega
  · rintro ⟨hya, hout⟩
    by_cases hside : stop.toNat ≤ y.1.toNat ∨ y.2.toNat ≤ start.toNat
    · exact ⟨y, .inl ⟨rfl, hside⟩, hya⟩
    rcases Nat.lt_or_ge a start.toNat with ha | ha
    · exact ⟨(y.1, start), .inr ⟨by omega, by omega, .inl ⟨by omega, rfl⟩⟩, hya.1, ha⟩
    · have ha : stop.toNat ≤ a := by omega
      exact ⟨(stop, y.2), .inr ⟨by omega, by omega, .inr ⟨by omega, rfl⟩⟩, ha, hya.2⟩

theorem mem_remains {s e : UInt64} {x : UInt64 × UInt64} :
    x ∈ remains start stop s e ↔ s < start ∧ x = (s, start) ∨ stop < e ∧ x = (stop, e) := by
  unfold remains
  split <;> split <;> simp_all

theorem mem_hit (h : Spaced gap m) {x : UInt64 × UInt64} :
    x ∈ hit m start stop ↔ x ∈ m.toList ∧ x.1.toNat < stop.toNat ∧ start.toNat < x.2.toNat := by
  have up := h.upward (p := fun e => decide (start < e)) fun e e' hlt he =>
    decide_eq_true (UInt64.lt_trans (of_decide_eq_true he) (UInt64.lt_iff_toNat_lt.2 hlt))
  rw [hit, AddressMap.mem_takeWhile_below up, decide_eq_true_eq, UInt64.lt_iff_toNat_lt,
    UInt64.lt_iff_toNat_lt]

/-- What is left of the ranges that are hit. -/
theorem mem_flatMap_remains (h : Spaced gap m) {x : UInt64 × UInt64} :
    x ∈ (hit m start stop).flatMap (fun x => remains start stop x.1 x.2) ↔
      ∃ y ∈ m.toList, y.1.toNat < stop.toNat ∧ start.toNat < y.2.toNat ∧ Piece start stop y x := by
  simp only [List.mem_flatMap, mem_hit h, mem_remains, UInt64.lt_iff_toNat_lt, and_assoc]
  refine exists_congr fun y => and_congr_right fun _ => and_congr_right fun h₁ =>
    and_congr_right fun h₂ => ⟨fun hx => .inr ⟨h₁, h₂, hx⟩, ?_⟩
  rintro (⟨-, hside⟩ | ⟨-, -, hx⟩)
  · omega
  · exact hx

/-- Pieces are apart, of whatever ranges they are. -/
theorem Spaced.piece_eq_or_gap (h : Spaced gap m) (hgap : start.toNat + gap ≤ stop.toNat)
    {x x' y y' : UInt64 × UInt64} (hy : y ∈ m.toList) (hy' : y' ∈ m.toList)
    (hx : Piece start stop y x) (hx' : Piece start stop y' x') :
    x = x' ∨ x.2.toNat + gap ≤ x'.1.toNat ∨ x'.2.toNat + gap ≤ x.1.toNat := by
  have hw := hx.within
  have hw' := hx'.within
  rcases h.eq_or_gap hy hy' with rfl | hg | hg
  · exact hx.eq_or_gap hx' hgap
  · omega
  · omega

theorem mem_cutOut (h : Spaced gap m) (hgap : start.toNat + gap ≤ stop.toNat) {x : UInt64 × UInt64} :
    x ∈ (cutOut m start stop).toList ↔ ∃ y ∈ m.toList, Piece start stop y x := by
  have same_key : ∀ {x x' y y'}, y ∈ m.toList → y' ∈ m.toList → Piece start stop y x →
      Piece start stop y' x' → x.1 = x'.1 → x = x' := by
    intro x x' y y' hy hy' hx hx' hkey
    have hn := hx.nonempty (h.nonempty y hy)
    have hn' := hx'.nonempty (h.nonempty y' hy')
    have hk := congrArg UInt64.toNat hkey
    rcases h.piece_eq_or_gap hgap hy hy' hx hx' with heq | hg | hg
    · exact heq
    · omega
    · omega
  have distinct : ∀ x ∈ (hit m start stop).flatMap (fun x => remains start stop x.1 x.2),
      ∀ x' ∈ (hit m start stop).flatMap (fun x => remains start stop x.1 x.2),
        x.1 = x'.1 → x = x' := by
    intro x hx x' hx' hkey
    obtain ⟨y, hy, -, -, hpiece⟩ := (mem_flatMap_remains h).1 hx
    obtain ⟨y', hy', -, -, hpiece'⟩ := (mem_flatMap_remains h).1 hx'
    exact same_key hy hy' hpiece hpiece' hkey
  rw [cutOut, AddressMap.mem_insertAll distinct, AddressMap.mem_eraseAll, mem_flatMap_remains h]
  constructor
  · rintro (⟨y, hy, -, -, hpiece⟩ | ⟨⟨hx, hk⟩, -⟩)
    · exact ⟨y, hy, hpiece⟩
    · refine ⟨x, hx, .inl ⟨rfl, ?_⟩⟩
      by_contra hcon
      exact hk (List.mem_map_of_mem ((mem_hit h).2 ⟨hx, by omega, by omega⟩))
  · rintro ⟨y, hy, hpiece⟩
    by_cases hside : stop.toNat ≤ y.1.toNat ∨ y.2.toNat ≤ start.toNat
    · -- `y` itself is left: no overlapping range has its start, and no piece of one
      obtain rfl : x = y := by
        rcases hpiece with ⟨rfl, -⟩ | ⟨h₁, h₂, -⟩
        · rfl
        · omega
      refine .inr ⟨⟨hy, fun hk => ?_⟩, fun z hz hkey => ?_⟩
      · obtain ⟨z, hz, hzx⟩ := List.mem_map.1 hk
        obtain ⟨hz, hz₁, hz₂⟩ := (mem_hit h).1 hz
        obtain rfl := AddressMap.eq_of_mem hz hy hzx
        omega
      · obtain ⟨y', hy', h₁, h₂, hz⟩ := (mem_flatMap_remains h).1 hz
        obtain rfl := same_key hy' hy hz hpiece hkey
        have hw := hz.within
        have hn := h.nonempty _ hy
        rcases h.eq_or_gap hy' hy with rfl | hg | hg <;> omega
    · exact .inl ⟨y, hy, by omega, by omega, hpiece⟩

theorem spaced_cutOut (h : Spaced gap m) (hgap : start.toNat + gap ≤ stop.toNat) :
    Spaced gap (cutOut m start stop) := by
  refine .of_mem (fun x hx => ?_) fun x hx x' hx' => ?_
  · obtain ⟨y, hy, hpiece⟩ := (mem_cutOut h hgap).1 hx
    exact hpiece.nonempty (h.nonempty y hy)
  · obtain ⟨y, hy, hpiece⟩ := (mem_cutOut h hgap).1 hx
    obtain ⟨y', hy', hpiece'⟩ := (mem_cutOut h hgap).1 hx'
    exact h.piece_eq_or_gap hgap hy hy' hpiece hpiece'

theorem covered_cutOut (h : Spaced gap m) (hgap : start.toNat + gap ≤ stop.toNat) :
    covered (cutOut m start stop) = covered m \ Set.Ico start.toNat stop.toNat := by
  ext a
  rw [Set.mem_sdiff, mem_covered, mem_covered, Set.mem_Ico]
  constructor
  · rintro ⟨x, hx, hxa⟩
    obtain ⟨y, hy, hpiece⟩ := (mem_cutOut h hgap).1 hx
    obtain ⟨hya, hout⟩ := exists_piece_iff.1 ⟨x, hpiece, hxa⟩
    exact ⟨⟨y, hy, hya⟩, hout⟩
  · rintro ⟨⟨y, hy, hya⟩, hout⟩
    obtain ⟨x, hpiece, hxa⟩ := exists_piece_iff.2 ⟨hya, hout⟩
    exact ⟨x, (mem_cutOut h hgap).2 ⟨y, hy, hpiece⟩, hxa⟩

end cutOut

/-! ## Cutting to a part -/

section inside

variable {gap : ℕ} {m : AddressMap UInt64} {lo hi : UInt64}

/-- The part of a range inside `[lo, hi)`, unless it is empty. -/
def overlap (lo hi : UInt64) (x : UInt64 × UInt64) : Option (UInt64 × UInt64) :=
  if Word.max x.1 lo < Word.min x.2 hi then some (Word.max x.1 lo, Word.min x.2 hi) else none

/-- The parts of some ranges inside `[lo, hi)`. -/
def inside (m : AddressMap UInt64) (lo hi : UInt64) : AddressMap UInt64 :=
  AddressMap.empty.insertAll (m.toList.filterMap (overlap lo hi))

theorem overlap_eq_some {x y : UInt64 × UInt64} (h : overlap lo hi y = some x) :
    x.1.toNat = max y.1.toNat lo.toNat ∧ x.2.toNat = min y.2.toNat hi.toNat ∧
      x.1.toNat < x.2.toNat := by
  unfold overlap at h
  split at h
  · rename_i hlt
    obtain rfl := Option.some.inj h
    exact ⟨Word.toNat_max .., Word.toNat_min .., UInt64.lt_iff_toNat_lt.1 hlt⟩
  · cases h

theorem exists_overlap_iff {y : UInt64 × UInt64} {a : ℕ} :
    (∃ x, overlap lo hi y = some x ∧ x.1.toNat ≤ a ∧ a < x.2.toNat) ↔
      (y.1.toNat ≤ a ∧ a < y.2.toNat) ∧ lo.toNat ≤ a ∧ a < hi.toNat := by
  constructor
  · rintro ⟨x, hx, hxa⟩
    have := overlap_eq_some hx
    omega
  · rintro ⟨hya, hin⟩
    have h₁ := Word.toNat_max y.1 lo
    have h₂ := Word.toNat_min y.2 hi
    exact ⟨_, if_pos (UInt64.lt_iff_toNat_lt.2 (by omega)), by simp only; omega, by simp only; omega⟩

theorem Spaced.overlap_eq_or_gap (h : Spaced gap m) {x x' y y' : UInt64 × UInt64} (hy : y ∈ m.toList)
    (hy' : y' ∈ m.toList) (hx : overlap lo hi y = some x) (hx' : overlap lo hi y' = some x') :
    x = x' ∨ x.2.toNat + gap ≤ x'.1.toNat ∨ x'.2.toNat + gap ≤ x.1.toNat := by
  have hw := overlap_eq_some hx
  have hw' := overlap_eq_some hx'
  rcases h.eq_or_gap hy hy' with rfl | hg | hg
  · exact .inl (Option.some.inj (hx.symm.trans hx'))
  · omega
  · omega

theorem mem_inside (h : Spaced gap m) {x : UInt64 × UInt64} :
    x ∈ (inside m lo hi).toList ↔ ∃ y ∈ m.toList, overlap lo hi y = some x := by
  have distinct : ∀ x ∈ m.toList.filterMap (overlap lo hi),
      ∀ x' ∈ m.toList.filterMap (overlap lo hi), x.1 = x'.1 → x = x' := by
    intro x hx x' hx' hkey
    obtain ⟨y, hy, hxy⟩ := List.mem_filterMap.1 hx
    obtain ⟨y', hy', hxy'⟩ := List.mem_filterMap.1 hx'
    have hk := congrArg UInt64.toNat hkey
    have hn := overlap_eq_some hxy
    have hn' := overlap_eq_some hxy'
    rcases h.overlap_eq_or_gap hy hy' hxy hxy' with heq | hg | hg
    · exact heq
    · omega
    · omega
  rw [inside, AddressMap.mem_insertAll distinct, List.mem_filterMap]
  exact or_iff_left fun h => AddressMap.mem_empty h.1

theorem spaced_inside (h : Spaced gap m) : Spaced gap (inside m lo hi) := by
  refine .of_mem (fun x hx => ?_) fun x hx x' hx' => ?_
  · obtain ⟨y, hy, hxy⟩ := (mem_inside h).1 hx
    exact (overlap_eq_some hxy).2.2
  · obtain ⟨y, hy, hxy⟩ := (mem_inside h).1 hx
    obtain ⟨y', hy', hxy'⟩ := (mem_inside h).1 hx'
    exact h.overlap_eq_or_gap hy hy' hxy hxy'

theorem covered_inside (h : Spaced gap m) :
    covered (inside m lo hi) = covered m ∩ Set.Ico lo.toNat hi.toNat := by
  ext a
  rw [Set.mem_inter_iff, mem_covered, mem_covered, Set.mem_Ico]
  constructor
  · rintro ⟨x, hx, hxa⟩
    obtain ⟨y, hy, hxy⟩ := (mem_inside h).1 hx
    obtain ⟨hya, hin⟩ := exists_overlap_iff.1 ⟨x, hxy, hxa⟩
    exact ⟨⟨y, hy, hya⟩, hin⟩
  · rintro ⟨⟨y, hy, hya⟩, hin⟩
    obtain ⟨x, hxy, hxa⟩ := exists_overlap_iff.2 ⟨hya, hin⟩
    exact ⟨x, (mem_inside h).2 ⟨y, hy, hxy⟩, hxa⟩

end inside

/-- The part `[lo, hi)` of a reservation. -/
def part (r : Region) (lo hi : UInt64) : Region :=
  { r with base := lo, size := hi - lo, committed := inside r.committed lo hi }

theorem slice_eq (r : Region) (start stop : UInt64) :
    r.slice start stop = (r.clip start stop).map fun x => r.part x.1 x.2 :=
  rfl

/-- A part cut to the reservation lies within both. -/
theorem clip_eq_some {r : Region} {start stop : UInt64} {x : UInt64 × UInt64}
    (h : r.clip start stop = some x) :
    x.1.toNat = max start.toNat r.base.toNat ∧ x.2.toNat = min stop.toNat r.finish.toNat ∧
      x.1.toNat < x.2.toNat := by
  unfold clip at h
  dsimp only at h
  split at h
  · rename_i hlt
    obtain rfl := Option.some.inj h
    exact ⟨Word.toNat_max .., Word.toNat_min .., UInt64.lt_iff_toNat_lt.1 hlt⟩
  · cases h

theorem clip_eq_none {r : Region} {start stop : UInt64} (h : r.clip start stop = none) :
    min stop.toNat r.finish.toNat ≤ max start.toNat r.base.toNat := by
  unfold clip at h
  dsimp only at h
  split at h
  · cases h
  · rename_i hlt
    have := UInt64.le_iff_toNat_le.1 (UInt64.not_lt.1 hlt)
    rwa [Word.toNat_max, Word.toNat_min] at this

end HostServices.Region
