import HostServices.Proofs.MallocLimit.Grammar

/-!
# Ceilings read back

Printed ceilings are read as the ceilings they were printed from (`parse_text`). The printed text
falls into the entries it was joined from (`entries_render`), each entry sets the ceiling that it
was printed for (`addEntry_total`, `addEntry_category`), and the entries of different categories
leave each other alone (`foldlM_categoryEntries`).
-/

namespace HostServices

/-! ## Names of categories -/

namespace Category

theorem nodup_all : all.Nodup := by decide

/-- A category is found by its short name. -/
theorem ofName?_shortName (c : Category) : ofName? c.shortName.toList = some c := by
  cases c <;> decide

theorem isLower_shortName (c : Category) : c.shortName.toList.all Char.isLower = true := by
  cases c <;> decide

theorem isLower_of_mem_shortName {c : Category} {x : Char} (h : x ∈ c.shortName.toList) :
    x.isLower = true :=
  List.all_eq_true.1 c.isLower_shortName x h

theorem not_mem_shortName {c : Category} {x : Char} (h : x.isLower = false) :
    x ∉ c.shortName.toList := by
  intro hx
  rw [isLower_of_mem_shortName hx] at h
  cases h

theorem isBlank_of_mem_shortName {c : Category} {x : Char} (h : x ∈ c.shortName.toList) :
    Text.isBlank x = false := by
  obtain ⟨hlo, hhi⟩ := Bool.and_eq_true_iff.1 (isLower_of_mem_shortName h)
  have hlo : 97 ≤ x.toNat := UInt32.le_iff_toNat_le.1 (of_decide_eq_true hlo)
  have hhi : x.toNat ≤ 122 := UInt32.le_iff_toNat_le.1 (of_decide_eq_true hhi)
  exact Text.isBlank_of_between (by omega) (by omega)

end Category

namespace MallocLimit

variable {limit : MallocLimit} {c : Category} {bytes : UInt64}

/-! ## One entry -/

/-- A printed entry holds no blank and no comma, and is not empty. -/
structure Solid (entry : List Char) : Prop where
  notBlank : ∀ x ∈ entry, Text.isBlank x = false
  noComma : ',' ∉ entry
  nonempty : entry ≠ []

theorem solid_size (bytes : UInt64) : Solid (SizeText.render bytes) where
  notBlank _ hx := SizeText.isBlank_of_mem_render hx
  noComma := SizeText.not_mem_render (by decide) (by decide)
  nonempty := SizeText.render_ne_nil bytes

theorem solid_named (c : Category) (bytes : UInt64) :
    Solid (c.shortName.toList ++ ':' :: SizeText.render bytes) where
  notBlank x hx := by
    rcases List.mem_append.1 hx with hname | hrest
    · exact Category.isBlank_of_mem_shortName hname
    · rcases List.mem_cons.1 hrest with rfl | hsize
      · decide
      · exact SizeText.isBlank_of_mem_render hsize
  noComma hx := by
    rcases List.mem_append.1 hx with hname | hrest
    · exact Category.not_mem_shortName (by decide) hname
    · rcases List.mem_cons.1 hrest with heq | hsize
      · exact absurd heq (by decide)
      · exact SizeText.not_mem_render (by decide) (by decide) hsize
  nonempty := List.append_ne_nil_of_right_ne_nil _ (List.cons_ne_nil _ _)

theorem addEntry_total (h : limit.total = .none) (bytes : UInt64) :
    addEntry limit (SizeText.render bytes) = .ok (limit.withTotal bytes) :=
  addEntry_eq_ok_iff.2 ⟨.none, bytes, .total (SizeText.denotes_render bytes), h, rfl⟩

theorem addEntry_category (h : limit.category c = .none) (bytes : UInt64) :
    addEntry limit (c.shortName.toList ++ ':' :: SizeText.render bytes) =
      .ok (limit.withCategory c bytes) :=
  addEntry_eq_ok_iff.2 ⟨some c, bytes,
    .category (Category.not_mem_shortName (by decide))
      (Category.ofName?_eq_some_iff.1 (Category.ofName?_shortName c)) (SizeText.denotes_render bytes),
    h, rfl⟩

/-! ## All entries -/

/-- The printed entries. -/
def printed (limit : MallocLimit) : List (List Char) :=
  (limit.total.map SizeText.render).toList ++ Category.all.filterMap limit.categoryEntry?

theorem solid_of_mem_printed {entry : List Char} (h : entry ∈ limit.printed) : Solid entry := by
  rcases List.mem_append.1 h with htotal | hcategory
  · obtain ⟨bytes, -, rfl⟩ := Option.map_eq_some_iff.1 (Option.mem_toList.1 htotal)
    exact solid_size bytes
  · obtain ⟨c, -, hentry⟩ := List.mem_filterMap.1 hcategory
    obtain ⟨bytes, -, rfl⟩ := Option.map_eq_some_iff.1 hentry
    exact solid_named c bytes

/-- The printed text falls into the printed entries. -/
theorem entries_render (limit : MallocLimit) : entries limit.render = limit.printed := by
  have htrim : limit.printed.map Text.trim = limit.printed :=
    (List.map_congr_left fun entry hentry =>
      Text.trim_eq_iff.2 (Text.trimmed_of_not_blank (solid_of_mem_printed hentry).notBlank)).trans
        (List.map_id _)
  have hfilter : limit.printed.filter (· ≠ []) = limit.printed :=
    List.filter_eq_self.2 fun entry hentry =>
      decide_eq_true (solid_of_mem_printed hentry).nonempty
  by_cases hempty : limit.printed = []
  · -- joining no entries leaves one empty piece, which is dropped
    rw [entries, render, ← printed, hempty]
    rfl
  · rw [entries, render, ← printed,
      Text.split_intercalate hempty fun entry hentry => (solid_of_mem_printed hentry).noComma,
      htrim, hfilter]

/-- The ceilings of `limit` for the categories of a list, on top of others. -/
def withCategories (base limit : MallocLimit) (cs : List Category) : MallocLimit :=
  { base with category := fun c => if c ∈ cs then limit.category c else base.category c }

theorem withCategories_cons_of_none {base : MallocLimit} {cs : List Category}
    (h : limit.category c = .none) (hfree : base.category c = .none) :
    base.withCategories limit cs = base.withCategories limit (c :: cs) := by
  refine MallocLimit.ext rfl (funext fun d => ?_)
  by_cases hd : d = c
  · subst hd
    simp only [withCategories, h, hfree, ite_self]
  · simp only [withCategories, List.mem_cons, hd, false_or]

theorem withCategories_cons_of_some {base : MallocLimit} {cs : List Category}
    (h : limit.category c = some bytes) :
    (base.withCategory c bytes).withCategories limit cs = base.withCategories limit (c :: cs) := by
  refine MallocLimit.ext rfl (funext fun d => ?_)
  by_cases hd : d = c
  · subst hd
    simp only [withCategories, withCategory, h, List.mem_cons, true_or, if_true, ite_self]
  · simp only [withCategories, withCategory, List.mem_cons, hd, false_or, if_false]

/-- The printed entries of categories without ceilings so far set those ceilings. -/
theorem foldlM_categoryEntries (limit : MallocLimit) {cs : List Category} (hnodup : cs.Nodup)
    (base : MallocLimit) (hfree : ∀ c ∈ cs, base.category c = .none) :
    (cs.filterMap limit.categoryEntry?).foldlM addEntry base =
      .ok (base.withCategories limit cs) := by
  induction cs generalizing base with
  | nil => rfl
  | cons c cs ih =>
    obtain ⟨hnot, hnodup⟩ := List.nodup_cons.1 hnodup
    have hc := hfree c List.mem_cons_self
    cases hceiling : limit.category c with
    | none =>
      have hentry : limit.categoryEntry? c = .none := by
        rw [ categoryEntry?, hceiling]
        rfl
      rw [List.filterMap_cons_none hentry, ← withCategories_cons_of_none hceiling hc]
      exact ih hnodup base fun d hd => hfree d (List.mem_cons_of_mem c hd)
    | some bytes =>
      have hentry : limit.categoryEntry? c =
          some (c.shortName.toList ++ ':' :: SizeText.render bytes) := by
        rw [ categoryEntry?, hceiling]
        rfl
      have hfree' : ∀ d ∈ cs, (base.withCategory c bytes).category d = .none := by
        intro d hd
        have hne : d ≠ c := ne_of_mem_of_not_mem hd hnot
        exact (if_neg hne).trans (hfree d (List.mem_cons_of_mem c hd))
      rw [List.filterMap_cons_some hentry, List.foldlM_cons, addEntry_category hc,
        ← withCategories_cons_of_some hceiling]
      exact ih hnodup _ hfree'

/-- Every printed entry sets its ceiling. -/
theorem foldlM_printed (limit : MallocLimit) : limit.printed.foldlM addEntry none = .ok limit := by
  have hall (base : MallocLimit) (htotal : base.total = limit.total) :
      base.withCategories limit Category.all = limit :=
    MallocLimit.ext htotal (funext fun c => if_pos c.mem_all)
  rw [printed, List.foldlM_append]
  cases htotal : limit.total with
  | none =>
    refine (foldlM_categoryEntries limit Category.nodup_all none fun _ _ => rfl).trans ?_
    rw [hall none htotal.symm]
  | some bytes =>
    have hfirst : [SizeText.render bytes].foldlM addEntry none = .ok (none.withTotal bytes) := by
      rw [List.foldlM_cons, addEntry_total rfl]
      rfl
    rw [Option.map_some, Option.toList_some, hfirst]
    refine (foldlM_categoryEntries limit Category.nodup_all _ fun _ _ => rfl).trans ?_
    rw [hall _ htotal.symm]

/-- Printed ceilings are read back. -/
theorem parse_text (limit : MallocLimit) : parse limit.text.toList = .ok limit := by
  rw [text, String.toList_ofList, parse, entries_render, foldlM_printed]

end MallocLimit

end HostServices
