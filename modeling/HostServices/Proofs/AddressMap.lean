import HostServices.AddressMap
import Mathlib.Data.List.Basic

/-!
# Entries of address maps

What an edit does to the entries of a map (`mem_insert`, `mem_erase`, `mem_eraseAll`,
`mem_insertAll`), and what a search backwards from an address finds. Such a search ends at the
first entry that does not fit: `mem_takeWhile_below` and `mem_takeWhile_upTo` say when it finds
all that fit, `head?_upTo_filter` when the nearest entry is the only candidate.
-/

namespace HostServices.AddressMap

variable {α : Type} {m : AddressMap α}

/-! ## Entries and keys -/

theorem get?_of_mem {e : UInt64 × α} (he : e ∈ m.toList) : m.get? e.1 = some e.2 :=
  get?_eq_some_iff.2 he

/-- There is one entry at an address. -/
theorem eq_of_mem {e e' : UInt64 × α} (he : e ∈ m.toList) (he' : e' ∈ m.toList) (hk : e.1 = e'.1) :
    e = e' := by
  have h₁ := get?_of_mem he
  have h₂ := get?_of_mem he'
  rw [hk, h₂] at h₁
  exact Prod.ext hk (Option.some.inj h₁).symm

/-- A relation between entries in address order holds of every two of them. -/
theorem pairwise_iff {R : UInt64 × α → UInt64 × α → Prop} :
    m.toList.Pairwise R ↔ ∀ x ∈ m.toList, ∀ y ∈ m.toList, x.1 < y.1 → R x y := by
  constructor
  · intro h x hx y hy hlt
    obtain ⟨i, hi, rfl⟩ := List.mem_iff_getElem.1 hx
    obtain ⟨j, hj, rfl⟩ := List.mem_iff_getElem.1 hy
    have hs := List.pairwise_iff_getElem.1 m.sorted
    rcases Nat.lt_trichotomy i j with hij | rfl | hij
    · exact List.pairwise_iff_getElem.1 h i j hi hj hij
    · exact absurd hlt (UInt64.lt_irrefl _)
    · exact absurd (UInt64.lt_trans hlt (hs j i hj hi hij)) (UInt64.lt_irrefl _)
  · intro h
    exact m.sorted.imp_of_mem fun hx hy hlt => h _ hx _ hy hlt

/-- A list in address order with the entries of a map is the list of the map. -/
theorem toList_eq_of_mem {l : List (UInt64 × α)} (hl : l.Pairwise (·.1 < ·.1))
    (h : ∀ e, e ∈ m.toList ↔ e ∈ l) : m.toList = l := by
  have irrefl : ∀ e : UInt64 × α, ¬ e.1 < e.1 := fun e => UInt64.lt_irrefl _
  have nodup : ∀ l : List (UInt64 × α), l.Pairwise (·.1 < ·.1) → l.Nodup := fun l hl =>
    hl.imp fun {a b} (hlt : a.1 < b.1) (heq : a = b) => irrefl b (heq ▸ hlt)
  refine List.Perm.eq_of_pairwise ?_ m.sorted hl
    ((List.perm_ext_iff_of_nodup (nodup _ m.sorted) (nodup l hl)).2 h)
  intro a b _ _ hab hba
  exact absurd (UInt64.lt_trans hab hba) (irrefl a)

/-- Maps that answer alike are equal. -/
theorem ext_get? {m m' : AddressMap α} (h : ∀ k, m.get? k = m'.get? k) : m = m' :=
  AddressMap.ext (toList_eq_of_mem m'.sorted fun e => by
    rw [← get?_eq_some_iff, ← get?_eq_some_iff, h])

theorem mem_map_fst_toList {k : UInt64} : k ∈ m.toList.map (·.1) ↔ m.contains k = true := by
  rw [List.mem_map, contains, Option.isSome_iff_exists]
  constructor
  · rintro ⟨e, he, rfl⟩
    exact ⟨e.2, get?_of_mem he⟩
  · rintro ⟨v, hv⟩
    exact ⟨(k, v), get?_eq_some_iff.1 hv, rfl⟩

/-- A map has as many entries as there are addresses that it contains. -/
theorem size_eq_length {ks : List UInt64} (hks : ks.Nodup)
    (h : ∀ k, m.contains k = true ↔ k ∈ ks) : m.size = ks.length := by
  have hnodup : (m.toList.map (·.1)).Nodup :=
    (List.pairwise_map.2 m.sorted).imp UInt64.ne_of_lt
  have hperm : (m.toList.map (·.1)).Perm ks :=
    (List.perm_ext_iff_of_nodup hnodup hks).2 fun k => mem_map_fst_toList.trans (h k)
  rw [← hperm.length_eq, List.length_map, size]

/-! ## Edits -/

theorem mem_empty {e : UInt64 × α} : e ∉ (empty : AddressMap α).toList :=
  List.not_mem_nil

theorem mem_insert {k : UInt64} {v : α} {e : UInt64 × α} :
    e ∈ (m.insert k v).toList ↔ e = (k, v) ∨ (e ∈ m.toList ∧ e.1 ≠ k) := by
  obtain ⟨j, w⟩ := e
  rw [← get?_eq_some_iff, get?_insert, ← get?_eq_some_iff]
  by_cases h : k = j
  · subst h
    simp only [if_true, Option.some.injEq, Prod.mk.injEq, true_and, ne_eq, not_true_eq_false,
      and_false, or_false]
    exact eq_comm
  · simp only [h, if_false, Prod.mk.injEq, Ne.symm h, false_and, ne_eq, not_false_eq_true,
      and_true, false_or]

theorem mem_erase {k : UInt64} {e : UInt64 × α} :
    e ∈ (m.erase k).toList ↔ e ∈ m.toList ∧ e.1 ≠ k := by
  simp [erase]

theorem contains_insert {k j : UInt64} {v : α} :
    (m.insert k v).contains j = true ↔ j = k ∨ m.contains j = true := by
  rw [contains, get?_insert]
  by_cases h : k = j
  · simp [h]
  · simp [h, Ne.symm h, contains]

theorem contains_erase {k j : UInt64} :
    (m.erase k).contains j = true ↔ j ≠ k ∧ m.contains j = true := by
  rw [contains, get?_erase]
  by_cases h : k = j
  · simp [h]
  · simp [h, Ne.symm h, contains]

theorem mem_eraseAll {ks : List UInt64} {e : UInt64 × α} :
    e ∈ (m.eraseAll ks).toList ↔ e ∈ m.toList ∧ e.1 ∉ ks := by
  induction ks generalizing m with
  | nil => simp [eraseAll]
  | cons k ks ih =>
    have := @ih (m.erase k)
    simp only [eraseAll, List.foldl_cons] at this ⊢
    rw [this, mem_erase, List.mem_cons, not_or, and_assoc]

/-- The entries after adding some, no two of which are at one address. -/
theorem mem_insertAll {es : List (UInt64 × α)} (hes : ∀ x ∈ es, ∀ y ∈ es, x.1 = y.1 → x = y)
    {e : UInt64 × α} :
    e ∈ (m.insertAll es).toList ↔ e ∈ es ∨ (e ∈ m.toList ∧ ∀ x ∈ es, x.1 ≠ e.1) := by
  induction es generalizing m with
  | nil => simp [insertAll]
  | cons x xs ih =>
    have := @ih (m.insert x.1 x.2) fun y hy z hz =>
      hes y (List.mem_cons_of_mem _ hy) z (List.mem_cons_of_mem _ hz)
    simp only [insertAll, List.foldl_cons] at this ⊢
    rw [this, mem_insert]
    simp only [List.mem_cons, forall_eq_or_imp]
    constructor
    · rintro (h | ⟨rfl | ⟨hm, hne⟩, hxs⟩)
      · exact .inl (.inr h)
      · exact .inl (.inl rfl)
      · exact .inr ⟨hm, hne.symm, hxs⟩
    · rintro ((rfl | h) | ⟨hm, hne, hxs⟩)
      · by_cases hx : ∃ y ∈ xs, y.1 = e.1
        · obtain ⟨y, hy, hye⟩ := hx
          have := hes y (List.mem_cons_of_mem _ hy) e List.mem_cons_self hye
          exact .inl (this ▸ hy)
        · exact .inr ⟨.inl rfl, fun y hy hye => hx ⟨y, hy, hye⟩⟩
      · exact .inl h
      · exact .inr ⟨.inr ⟨hm, hne.symm⟩, hxs⟩

/-- Taking an entry out and putting it back changes nothing. -/
theorem insert_erase {k : UInt64} {v : α} (h : m.get? k = some v) : (m.erase k).insert k v = m := by
  refine ext_get? fun j => ?_
  rw [get?_insert, get?_erase]
  by_cases hj : k = j
  · rw [if_pos hj, ← hj, h]
  · rw [if_neg hj, if_neg hj]

/-- What was at an address plays no part in putting an entry there. -/
theorem insert_erase_self (m : AddressMap α) (k : UInt64) (v : α) :
    (m.erase k).insert k v = m.insert k v := by
  refine ext_get? fun j => ?_
  rw [get?_insert, get?_insert, get?_erase]
  by_cases hj : k = j
  · rw [if_pos hj, if_pos hj]
  · rw [if_neg hj, if_neg hj, if_neg hj]

theorem erase_of_get?_eq_none {k : UInt64} (h : m.get? k = none) : m.erase k = m := by
  refine ext_get? fun j => ?_
  rw [get?_erase]
  by_cases hj : k = j
  · rw [if_pos hj, ← hj, h]
  · rw [if_neg hj]

/-! ## Values -/

theorem insertEntry_perm {k : UInt64} {v : α} {l : List (UInt64 × α)} (h : lookup k l = none) :
    (insertEntry k v l).Perm ((k, v) :: l) := by
  induction l with
  | nil => exact List.Perm.refl _
  | cons e rest ih =>
    obtain ⟨j, w⟩ := e
    rw [lookup] at h
    split at h
    · cases h
    · rename_i hj
      rw [insertEntry]
      split
      · exact List.Perm.refl _
      · rw [if_neg (Ne.symm hj)]
        exact ((ih h).cons _).trans (List.Perm.swap ..)

theorem values_insert_perm {k : UInt64} {v : α} (h : m.get? k = none) :
    (m.insert k v).values.Perm (v :: m.values) :=
  (insertEntry_perm h).map _

/-- An entry goes in for the one that was at its address, if there was one. -/
theorem values_insert_perm_erase (m : AddressMap α) (k : UInt64) (v : α) :
    (m.insert k v).values.Perm (v :: (m.erase k).values) := by
  have hnone : (m.erase k).get? k = none := by rw [get?_erase, if_pos rfl]
  have := values_insert_perm (v := v) hnone
  rwa [insert_erase_self] at this

theorem values_erase_perm {k : UInt64} {v : α} (h : m.get? k = some v) :
    m.values.Perm (v :: (m.erase k).values) := by
  have hnone : (m.erase k).get? k = none := by rw [get?_erase, if_pos rfl]
  have := values_insert_perm (v := v) hnone
  rwa [insert_erase h] at this

/-! ## Searches backwards -/

theorem mem_below {k : UInt64} {e : UInt64 × α} : e ∈ m.below k ↔ e ∈ m.toList ∧ e.1 < k := by
  simp [below]

theorem mem_upTo {k : UInt64} {e : UInt64 × α} : e ∈ m.upTo k ↔ e ∈ m.toList ∧ e.1 ≤ k := by
  simp [upTo]

/-- Where a predicate that fails once fails from there on, the part up to its first failure is all
of its extent. -/
theorem takeWhile_eq_filter {β : Type} {p : β → Bool} {l : List β}
    (h : l.Pairwise fun x y => p y = true → p x = true) : l.takeWhile p = l.filter p := by
  induction l with
  | nil => rfl
  | cons x xs ih =>
    obtain ⟨hx, hxs⟩ := List.pairwise_cons.1 h
    by_cases hp : p x = true
    · rw [List.takeWhile_cons_of_pos hp, List.filter_cons_of_pos hp, ih hxs]
    · rw [List.takeWhile_cons_of_neg hp, List.filter_cons_of_neg hp, eq_comm,
        List.filter_eq_nil_iff]
      exact fun y hy hpy => hp (hx y hy hpy)

variable {p : UInt64 × α → Bool}

/-- A predicate on entries that, where it holds, holds of all the higher ones. -/
def Upward (m : AddressMap α) (p : UInt64 × α → Bool) : Prop :=
  ∀ x ∈ m.toList, ∀ y ∈ m.toList, x.1 < y.1 → p x = true → p y = true

theorem Upward.pairwise_reverse (h : m.Upward p) (q : UInt64 × α → Bool) :
    (m.toList.filter q).reverse.Pairwise fun x y => p y = true → p x = true :=
  List.pairwise_reverse.2 ((pairwise_iff.2 h).filter q)

theorem mem_takeWhile_below (h : m.Upward p) {k : UInt64} {e : UInt64 × α} :
    e ∈ (m.below k).takeWhile p ↔ e ∈ m.toList ∧ e.1 < k ∧ p e = true := by
  rw [below, takeWhile_eq_filter (h.pairwise_reverse _), List.mem_filter, ← below, mem_below,
    and_assoc]

theorem mem_takeWhile_upTo (h : m.Upward p) {k : UInt64} {e : UInt64 × α} :
    e ∈ (m.upTo k).takeWhile p ↔ e ∈ m.toList ∧ e.1 ≤ k ∧ p e = true := by
  rw [upTo, takeWhile_eq_filter (h.pairwise_reverse _), List.mem_filter, ← upTo, mem_upTo, and_assoc]

/-- No entry at or below an address is above the nearest one. -/
theorem le_head?_upTo {k : UInt64} {e x : UInt64 × α} (he : (m.upTo k).head? = some e)
    (hx : x ∈ m.upTo k) : x.1 ≤ e.1 := by
  have hs : (m.upTo k).Pairwise fun x y => y.1 < x.1 := List.pairwise_reverse.2 (m.sorted.filter _)
  obtain ⟨rest, hrest⟩ := List.head?_eq_some_iff.1 he
  rw [hrest] at hs hx
  rcases List.mem_cons.1 hx with rfl | hx
  · exact UInt64.le_refl _
  · exact UInt64.le_of_lt ((List.pairwise_cons.1 hs).1 x hx)

/-- The nearest entry at or below an address is the one that fits, if those that fit have no other
entry between them and the address. -/
theorem head?_upTo_filter {k : UInt64} {e : UInt64 × α}
    (h : ∀ x ∈ m.toList, x.1 ≤ k → p x = true → ∀ y ∈ m.toList, x.1 < y.1 → k < y.1) :
    (m.upTo k).head?.filter p = some e ↔ e ∈ m.toList ∧ e.1 ≤ k ∧ p e = true := by
  rw [Option.filter_eq_some_iff]
  constructor
  · rintro ⟨he, hp⟩
    obtain ⟨hm, hk⟩ := mem_upTo.1 (List.mem_of_head? he)
    exact ⟨hm, hk, hp⟩
  · rintro ⟨hm, hk, hp⟩
    refine ⟨?_, hp⟩
    have hmem : e ∈ m.upTo k := mem_upTo.2 ⟨hm, hk⟩
    cases hh : (m.upTo k).head? with
    | none => rw [List.head?_eq_none_iff.1 hh] at hmem; cases hmem
    | some f =>
      obtain ⟨hf, hfk⟩ := mem_upTo.1 (List.mem_of_head? hh)
      rcases UInt64.lt_or_eq_of_le (le_head?_upTo hh hmem) with hlt | heq
      · exact absurd hfk (UInt64.not_le.2 (h e hm hk hp f hf hlt))
      · rw [eq_of_mem hf hm heq.symm]

end HostServices.AddressMap
