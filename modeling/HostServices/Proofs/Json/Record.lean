import HostServices.Json.Decoder

/-!
# Records from their members

Members with different names, each with the value of a field, are read by applying to the record
what their fields put into it, one after the other (`readMembers_eq_foldl`). Numbers, optional
values and names are read from their documents (`toWord_ofWord`, `toOption_ofOption`,
`toName_ofString`).
-/

namespace HostServices.Json

variable {σ α : Type}

/-! ## Values -/

theorem toWord_ofWord (a : UInt64) : (ofWord a).toWord = .ok a := by
  simp [ofWord, toWord, Literal.ofNat, UInt64.toNat_lt_size]

theorem toOption_ofOption {write : α → Json} {read : Json → Except Problem α}
    (hread : ∀ a, read (write a) = .ok a) (hnull : ∀ a, write a ≠ .null) (a? : Option α) :
    toOption read (ofOption write a?) = .ok a? := by
  cases a? with
  | none => rfl
  | some a =>
    rw [ofOption, toOption, hread]
    · rfl
    · exact hnull a

theorem toName_ofString {names : List (String × α)} {name : String} {a : α}
    (h : names.find? (·.1 = name) = some (name, a)) : toName names (ofString name) = .ok a := by
  simp only [ofString, toName, toText, toName.find, if_true, bind, Except.bind, h]

/-! ## Members -/

/-- The member is read as its field, which puts `put` into the record. -/
def Gives (fields : List (Field σ)) (put : String → σ → σ) (m : Token × Json) : Prop :=
  m.1.paired = true ∧ ∃ f, fields.find? (·.name = m.1.text) = some f ∧
    ∀ s, f.read m.2 s = .ok (put m.1.text s)

theorem gives_of {fields : List (Field σ)} {put : String → σ → σ} {name : String} {j : Json}
    {read : Json → Except Problem α} {set : α → σ → σ} {a : α}
    (hfind : fields.find? (·.name = name) = some (.of name read set)) (hread : read j = .ok a)
    (hput : ∀ s, set a s = put name s) : Gives fields put (⟨name, true⟩, j) := by
  refine ⟨rfl, _, hfind, fun s => ?_⟩
  show (read j).map _ = _
  rw [hread, ← hput]
  rfl

theorem readMembers_eq_foldl {fields : List (Field σ)} {put : String → σ → σ}
    {members : List (Token × Json)} {seen : List String} (hgives : ∀ m ∈ members, Gives fields put m)
    (hnodup : (members.map (·.1.text)).Nodup) (hseen : ∀ m ∈ members, m.1.text ∉ seen) (s : σ) :
    readMembers fields seen members .closed s =
      .ok (members.foldl (fun s m => put m.1.text s) s) := by
  induction members generalizing seen s with
  | nil => rfl
  | cons m members ih =>
    obtain ⟨hpaired, f, hfind, hread⟩ := hgives m List.mem_cons_self
    obtain ⟨hnot, hnodup⟩ := List.nodup_cons.1 hnodup
    have hseen' : ∀ k ∈ members, k.1.text ∉ m.1.text :: seen := by
      intro k hk hmem
      rcases List.mem_cons.1 hmem with heq | hmem
      · exact hnot (List.mem_map.2 ⟨k, hk, heq⟩)
      · exact hseen k (List.mem_cons_of_mem m hk) hmem
    simp only [readMembers, toText, hpaired, if_true, bind, Except.bind, hfind,
      if_neg (hseen m List.mem_cons_self), hread, List.foldl_cons]
    exact ih (fun k hk => hgives k (List.mem_cons_of_mem m hk)) hnodup hseen' _

end HostServices.Json
