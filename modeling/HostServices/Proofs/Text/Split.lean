import HostServices.Text.Blank
import HostServices.Text.Split
import Mathlib.Data.List.TakeWhile

/-!
# Texts in pieces

Splitting is that of lists (`split_eq_splitOn`): the pieces are without the separator, and joining
undoes splitting and splitting joining (`intercalate_split`, `split_intercalate`). A cut is at the
first separator (`cut?_eq_some_iff`). Trimming takes away the blanks at both ends and nothing else
(`trim_eq_iff`).
-/

namespace HostServices.Text

variable {sep c : Char} {cs inner before after piece : List Char} {pieces : List (List Char)}

/-! ## Splitting -/

theorem split_eq_splitOn (sep : Char) (cs : List Char) : split sep cs = cs.splitOn sep := by
  induction cs with
  | nil => rfl
  | cons c cs ih =>
    obtain ⟨piece, rest, hsplit, hcons⟩ := split_cons sep c cs
    rw [ih] at hsplit
    unfold List.splitOn at hsplit ⊢
    rw [hcons, List.splitOnP_cons_eq_if_modifyHead, hsplit]
    by_cases h : c = sep
    · rw [if_pos h, if_pos (beq_iff_eq.2 h)]
    · rw [if_neg h, if_neg (fun hbeq => h (beq_iff_eq.1 hbeq))]
      rfl

theorem split_intercalate (hpieces : pieces ≠ []) (h : ∀ piece ∈ pieces, sep ∉ piece) :
    split sep ([sep].intercalate pieces) = pieces := by
  rw [split_eq_splitOn]
  exact List.splitOn_intercalate sep h hpieces

theorem intercalate_split (sep : Char) (cs : List Char) : [sep].intercalate (split sep cs) = cs := by
  rw [split_eq_splitOn]
  exact List.intercalate_splitOn sep

/-- There is one more piece than there are separators. -/
theorem length_split (sep : Char) (cs : List Char) : (split sep cs).length = cs.count sep + 1 := by
  induction cs with
  | nil => rfl
  | cons c cs ih =>
    obtain ⟨piece, rest, hsplit, hcons⟩ := split_cons sep c cs
    rw [hsplit, List.length_cons] at ih
    rw [hcons]
    by_cases h : c = sep
    · rw [if_pos h, List.length_cons, List.length_cons, ih, h, List.count_cons_self]
    · rw [if_neg h, List.length_cons, ih, List.count_cons_of_ne h]

theorem notMem_of_mem_split (h : piece ∈ split sep cs) : sep ∉ piece := by
  induction cs generalizing piece with
  | nil =>
    rw [List.mem_singleton.1 h]
    exact List.not_mem_nil
  | cons c cs ih =>
    obtain ⟨first, rest, hsplit, hcons⟩ := split_cons sep c cs
    rw [hsplit] at ih
    rw [hcons] at h
    by_cases hsep : c = sep
    · rw [if_pos hsep] at h
      rcases List.mem_cons.1 h with rfl | htail
      · exact List.not_mem_nil
      · exact ih htail
    · rw [if_neg hsep] at h
      rcases List.mem_cons.1 h with rfl | htail
      · rw [List.mem_cons, not_or]
        exact ⟨Ne.symm hsep, ih List.mem_cons_self⟩
      · exact ih (List.mem_cons_of_mem _ htail)

/-! ## Cutting -/

theorem cut?_of_not_mem (h : sep ∉ cs) : cut? sep cs = none := by
  induction cs with
  | nil => rfl
  | cons c cs ih =>
    rw [List.mem_cons, not_or] at h
    rw [cut?, if_neg (Ne.symm h.1), ih h.2]
    rfl

theorem cut?_append (h : sep ∉ before) :
    cut? sep (before ++ sep :: after) = some (before, after) := by
  induction before with
  | nil => rw [List.nil_append, cut?, if_pos rfl]
  | cons c before ih =>
    rw [List.mem_cons, not_or] at h
    rw [List.cons_append, cut?, if_neg (Ne.symm h.1), ih h.2]
    rfl

/-- A cut is at the first separator. -/
theorem cut?_eq_some_iff :
    cut? sep cs = some (before, after) ↔ cs = before ++ sep :: after ∧ sep ∉ before := by
  constructor
  · intro h
    have hmem : sep ∈ cs := by
      refine Decidable.not_not.1 fun hnot => ?_
      rw [cut?_of_not_mem hnot] at h
      cases h
    obtain ⟨front, back, rfl, hfront⟩ := List.eq_append_cons_of_mem hmem
    rw [cut?_append hfront] at h
    cases h
    exact ⟨rfl, hfront⟩
  · rintro ⟨rfl, hbefore⟩
    exact cut?_append hbefore

theorem cut?_eq_none_iff : cut? sep cs = none ↔ sep ∉ cs := by
  refine ⟨fun h hmem => ?_, cut?_of_not_mem⟩
  obtain ⟨front, back, rfl, hfront⟩ := List.eq_append_cons_of_mem hmem
  rw [cut?_append hfront] at h
  cases h

/-- A text falls apart at its first separator in one way. -/
theorem cut_unique {before' after' : List Char} (h : sep ∉ before) (h' : sep ∉ before')
    (heq : before ++ sep :: after = before' ++ sep :: after') :
    before = before' ∧ after = after' := by
  have hcut : cut? sep (before ++ sep :: after) = some (before, after) := cut?_append h
  rw [heq, cut?_append h'] at hcut
  cases hcut
  exact ⟨rfl, rfl⟩

/-! ## Trimming -/

/-- `inner` is `cs` without the blanks at both ends. -/
structure Trimmed (cs inner : List Char) : Prop where
  around : ∃ before after, cs = before ++ (inner ++ after) ∧
    (∀ c ∈ before, isBlank c = true) ∧ ∀ c ∈ after, isBlank c = true
  first : ∀ c ∈ inner.head?, isBlank c = false
  last : ∀ c ∈ inner.getLast?, isBlank c = false

theorem dropWhile_eq_self (h : ∀ c ∈ cs.head?, isBlank c = false) : cs.dropWhile isBlank = cs := by
  cases cs with
  | nil => rfl
  | cons c cs => rw [List.dropWhile_cons, h c rfl, if_neg Bool.false_ne_true]

theorem head?_dropWhile_blank (cs : List Char) :
    ∀ c ∈ (cs.dropWhile isBlank).head?, isBlank c = false := by
  intro c hc
  have hhead := List.head?_dropWhile_not isBlank cs
  rw [Option.mem_def.1 hc] at hhead
  exact Bool.eq_false_iff.2 fun hblank => by simp [hblank] at hhead

theorem trim_eq_iff : trim cs = inner ↔ Trimmed cs inner := by
  constructor
  · rintro rfl
    have hleft := cs.takeWhile_append_dropWhile (p := isBlank)
    have hright : trim cs ++ ((cs.dropWhile isBlank).reverse.takeWhile isBlank).reverse =
        cs.dropWhile isBlank := by
      rw [trim, ← List.reverse_append, List.takeWhile_append_dropWhile, List.reverse_reverse]
    refine ⟨⟨cs.takeWhile isBlank, ((cs.dropWhile isBlank).reverse.takeWhile isBlank).reverse, ?_,
      fun c hc => List.mem_takeWhile_imp hc, fun c hc => List.mem_takeWhile_imp (List.mem_reverse.1 hc)⟩,
      fun c hc => ?_, ?_⟩
    · rw [hright, hleft]
    · refine head?_dropWhile_blank cs c ?_
      rw [← hright, List.head?_append, Option.mem_def.1 hc]
      rfl
    · rw [trim, List.getLast?_reverse]
      exact head?_dropWhile_blank _
  · rintro ⟨⟨before, after, rfl, hbefore, hafter⟩, hfirst, hlast⟩
    rw [trim, List.dropWhile_append_of_pos hbefore]
    cases inner with
    | nil =>
      rw [List.nil_append, List.dropWhile_eq_nil_iff.2 hafter]
      rfl
    | cons c inner =>
      have hstart : (c :: inner ++ after).dropWhile isBlank = c :: inner ++ after :=
        dropWhile_eq_self hfirst
      have hreverse : ∀ d ∈ (c :: inner).reverse.head?, isBlank d = false := by
        rwa [List.head?_reverse]
      rw [hstart, List.reverse_append,
        List.dropWhile_append_of_pos fun d hd => hafter d (List.mem_reverse.1 hd),
        dropWhile_eq_self hreverse, List.reverse_reverse]

theorem trimmed_of_not_blank (h : ∀ c ∈ cs, isBlank c = false) : Trimmed cs cs where
  around := ⟨[], [], (List.append_nil cs).symm, fun _ hc => absurd hc List.not_mem_nil,
    fun _ hc => absurd hc List.not_mem_nil⟩
  first c hc := h c (List.mem_of_mem_head? hc)
  last c hc := h c (List.mem_of_mem_getLast? hc)

end HostServices.Text
