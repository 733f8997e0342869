import HostServices.Proofs.Checked
import HostServices.Proofs.Text.Split
import HostServices.SearchPath

/-!
# The elements of a search path

The elements of a path are the one list of texts without separators that joining makes the path of
(`divides_iff`). Splitting goes through them in order, and the first that does not leave room for the
file name is the answer (`accept_of_first`); so a path is refused exactly if there is such an element,
and otherwise all elements are given (`split_exact`).
-/

namespace HostServices.SearchPath

variable {path text e : String} {nameLength : UInt64} {es before after : List String}

theorem toNat_byteLength (h : text.utf8ByteSize < 2 ^ 64) :
    (byteLength text).toNat = text.utf8ByteSize := by
  rw [byteLength, UInt64.toNat_ofNat', Nat.mod_eq_of_lt h]

/-! ## Elements -/

/-- The texts between the separators of a path: one more than there are separators, none with a
separator in it, and joined they are the path. -/
structure Divides (path : String) (es : List String) : Prop where
  length_eq : es.length = path.toList.count separator + 1
  notMem : ∀ e ∈ es, separator ∉ e.toList
  intercalate_eq : (String.singleton separator).intercalate es = path

theorem divides_elements (path : String) : Divides path (elements path) where
  length_eq := by rw [elements, List.length_map, Text.length_split]
  notMem e he := by
    obtain ⟨piece, hpiece, rfl⟩ := List.mem_map.1 he
    rw [String.toList_ofList]
    exact Text.notMem_of_mem_split hpiece
  intercalate_eq := by
    rw [← String.toList_inj, String.toList_intercalate, elements, List.map_map,
      String.toList_singleton]
    have hid : String.toList ∘ String.ofList = id := funext fun _ => String.toList_ofList
    rw [hid, List.map_id, Text.intercalate_split]

/-- A path divides in one way. -/
theorem divides_iff : Divides path es ↔ es = elements path := by
  constructor
  · intro h
    have hjoined : path.toList = [separator].intercalate (es.map String.toList) := by
      rw [← h.intercalate_eq, String.toList_intercalate, String.toList_singleton]
    have hne : es.map String.toList ≠ [] := by
      intro hnil
      have hlength := h.length_eq
      rw [List.map_eq_nil_iff.1 hnil] at hlength
      cases hlength
    have hnotMem : ∀ piece ∈ es.map String.toList, separator ∉ piece := by
      intro piece hpiece
      obtain ⟨e, he, rfl⟩ := List.mem_map.1 hpiece
      exact h.notMem e he
    have hid : String.ofList ∘ String.toList = id := funext fun _ => String.ofList_toList
    rw [elements, hjoined, Text.split_intercalate hne hnotMem, List.map_map, hid, List.map_id]
  · rintro rfl
    exact divides_elements path

/-! ## Room for the file name -/

/-- An element leaves room for a file name. -/
def Fits (nameLength : UInt64) (e : String) : Prop :=
  e.utf8ByteSize + nameLength.toNat ≤ longest.toNat

instance : DecidablePred (Fits nameLength) := fun _ => inferInstanceAs (Decidable (_ ≤ _))

/-- The bytes of an element and its file name, as a word. -/
def fileLength (nameLength : UInt64) (e : String) : UInt64 :=
  byteLength e + nameLength

section

variable (h : e.utf8ByteSize + nameLength.toNat < 2 ^ 64)
include h

theorem toNat_fileLength :
    (fileLength nameLength e).toNat = e.utf8ByteSize + nameLength.toNat := by
  have hlength := toNat_byteLength (Nat.lt_of_le_of_lt (Nat.le_add_right ..) h)
  rw [fileLength, Word.toNat_add_of_lt (hlength ▸ h), hlength]

/-- The first element is refused, or put before what becomes of the others. -/
theorem accept_cons (rest : List String) :
    accept nameLength (e :: rest) =
      if Fits nameLength e then (accept nameLength rest).map (·.map (e :: ·))
      else .ok (.error (.pathTooLong (fileLength nameLength e) longest)) := by
  have hlength := toNat_byteLength (Nat.lt_of_le_of_lt (Nat.le_add_right ..) h)
  have hsum : Checked.add (byteLength e) nameLength = .ok (fileLength nameLength e) :=
    Checked.add_of_lt (hlength ▸ h)
  have hlimit : longest < fileLength nameLength e ↔ ¬ Fits nameLength e := by
    rw [UInt64.lt_iff_toNat_lt, toNat_fileLength h, Fits, Nat.not_le]
  rw [accept, hsum]
  show (if longest < fileLength nameLength e then _ else _) = _
  by_cases hfits : Fits nameLength e
  · rw [if_neg (fun hlong => hlimit.1 hlong hfits), if_pos hfits]
    cases accept nameLength rest <;> rfl
  · rw [if_pos (hlimit.2 hfits), if_neg hfits]
    rfl

end

theorem accept_of_fits (hsum : ∀ e ∈ es, e.utf8ByteSize + nameLength.toNat < 2 ^ 64)
    (hfits : ∀ e ∈ es, Fits nameLength e) : accept nameLength es = .ok (.ok es) := by
  induction es with
  | nil => rfl
  | cons e es ih =>
    rw [List.forall_mem_cons] at hsum hfits
    rw [accept_cons hsum.1, if_pos hfits.1, ih hsum.2 hfits.2]
    rfl

/-- The first element without room is the answer, whatever comes after it. -/
theorem accept_of_first (after : List String)
    (hsum : ∀ b ∈ before, b.utf8ByteSize + nameLength.toNat < 2 ^ 64)
    (he : e.utf8ByteSize + nameLength.toNat < 2 ^ 64) (hbefore : ∀ b ∈ before, Fits nameLength b)
    (hlong : ¬ Fits nameLength e) :
    accept nameLength (before ++ e :: after) =
      .ok (.error (.pathTooLong (fileLength nameLength e) longest)) := by
  induction before with
  | nil => rw [List.nil_append, accept_cons he, if_neg hlong]
  | cons b before ih =>
    rw [List.forall_mem_cons] at hsum hbefore
    rw [List.cons_append, accept_cons hsum.1, if_pos hbefore.1, ih hsum.2 hbefore.2]
    rfl

/-- All elements leave room, or there is a first that does not. -/
theorem fits_or_first (nameLength : UInt64) (es : List String) :
    (∀ e ∈ es, Fits nameLength e) ∨ ∃ before e after, es = before ++ e :: after ∧
      (∀ b ∈ before, Fits nameLength b) ∧ ¬ Fits nameLength e := by
  cases hfind : es.find? (fun e => ¬ Fits nameLength e) with
  | none =>
    refine .inl fun e he => ?_
    simpa using List.find?_eq_none.1 hfind e he
  | some e =>
    obtain ⟨hlong, before, after, hes, hbefore⟩ := List.find?_eq_some_iff_append.1 hfind
    refine .inr ⟨before, e, after, hes, fun b hb => ?_, by simpa using hlong⟩
    simpa using hbefore b hb

theorem split_eq_accept (hpath : path ≠ "") (hname : 0 < nameLength) :
    split path nameLength = accept nameLength (elements path) := by
  have hzero : nameLength ≠ 0 := fun h => absurd (h ▸ hname) (by decide)
  rw [split, if_neg (not_or.2 ⟨hpath, hzero⟩)]

/-- Splitting a path that is not empty, for a file name that is not empty, either refuses the path or
gives all its elements. It refuses the path exactly if some element with the file name is longer than
the host's longest path, and says how long the first such is. -/
theorem split_exact {path : String} {nameLength : UInt64} (hpath : path ≠ "")
    (hname : 0 < nameLength)
    (hsum : ∀ e ∈ elements path, e.utf8ByteSize + nameLength.toNat < 2 ^ 64) :
    (∀ es, Divides path es ↔ es = elements path) ∧
      ((∃ error, split path nameLength = .ok (.error error)) ↔
        ∃ e ∈ elements path, longest.toNat < e.utf8ByteSize + nameLength.toNat) ∧
      (∀ error, split path nameLength = .ok (.error error) →
        ∃ before e after length, elements path = before ++ e :: after ∧
          (∀ b ∈ before, b.utf8ByteSize + nameLength.toNat ≤ longest.toNat) ∧
          longest.toNat < e.utf8ByteSize + nameLength.toNat ∧
          length.toNat = e.utf8ByteSize + nameLength.toNat ∧
          error = .pathTooLong length longest) ∧
      ((∀ e ∈ elements path, e.utf8ByteSize + nameLength.toNat ≤ longest.toNat) →
        split path nameLength = .ok (.ok (elements path))) := by
  refine ⟨fun es => divides_iff, ?_⟩
  rw [split_eq_accept hpath hname]
  rcases fits_or_first nameLength (elements path) with hfits | ⟨before, e, after, hes, hbefore, hlong⟩
  · rw [accept_of_fits hsum hfits]
    refine ⟨iff_of_false nofun ?_, nofun, fun _ => rfl⟩
    rintro ⟨e, he, hlong⟩
    exact Nat.not_lt.2 (hfits e he) hlong
  · have he : e ∈ elements path := hes ▸ List.mem_append_right before List.mem_cons_self
    have hanswer := accept_of_first after
      (fun b hb => hsum b (hes ▸ List.mem_append_left _ hb)) (hsum e he) hbefore hlong
    rw [← hes] at hanswer
    rw [hanswer]
    refine ⟨iff_of_true ⟨_, rfl⟩ ⟨e, he, Nat.not_le.1 hlong⟩, fun error herror => ?_,
      fun hall => absurd (hall e he) hlong⟩
    cases herror
    exact ⟨before, e, after, fileLength nameLength e, hes, hbefore, Nat.not_le.1 hlong,
      toNat_fileLength (hsum e he), rfl⟩

/-- Letters of two bytes between separators at both ends. -/
theorem split_exact_accents :
    split ":é::ü:" 8 = .ok (.ok ["", "é", "", "ü", ""]) := by
  have helements : elements ":é::ü:" = ["", "é", "", "ü", ""] := by decide +kernel
  obtain ⟨-, -, -, hfits⟩ := @split_exact ":é::ü:" 8 (by decide) (by decide)
    (by rw [helements]; decide)
  rw [helements] at hfits
  exact hfits (by decide)

end HostServices.SearchPath
