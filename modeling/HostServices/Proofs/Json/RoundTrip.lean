import HostServices.Json.Decoder
import HostServices.Proofs.Json.Token

/-!
# Documents read back

The text of a document that has one (`Complete`) is scanned as that document, whatever follows it
that does not go on with a number (`readBack`). Items and members are read one by one, each from
behind the comma before it (`items_tail`, `members_tail`); every step leaves enough fuel for the
text that is left, since a nested value costs three steps and at least as many characters. So scanning
a printed document gives the document (`scan_render`).
-/

namespace HostServices.Json

variable {c : Char} {cs rest : List Char} {fuel : ℕ} {j : Json} {js : List Json}
  {members : List (Token × Json)}

/-! ## The characters of a document -/

/-- Documents that their text describes: numbers are whole and have no sign, surrogates are paired,
and lists end at their bracket. -/
inductive Complete : Json → Prop
  | null : Complete .null
  | bool (b : Bool) : Complete (.bool b)
  | number (n : ℕ) : Complete (.number (.ofNat n))
  | string (s : String) : Complete (.string ⟨s, true⟩)
  | array {items : List Json} (h : ∀ j ∈ items, Complete j) : Complete (.array items .closed)
  | object {members : List (Token × Json)} (hkeys : ∀ m ∈ members, m.1.paired = true)
      (h : ∀ m ∈ members, Complete m.2) : Complete (.object members .closed)

theorem toList_quote (s : String) :
    (quote s).toList = '"' :: (s.toList.flatMap escaped ++ ['"']) := by
  simp [quote]

theorem toList_render_ofNat (n : ℕ) : (render (.number (.ofNat n))).toList = Nat.toDigits 10 n := by
  simp [render, Literal.ofNat]

/-- The characters of a member. -/
def memberText (m : Token × Json) : List Char :=
  (quote m.1.text).toList ++ ':' :: (render m.2).toList

theorem renderItems_eq_map (js : List Json) : renderItems js = js.map render := by
  induction js with
  | nil => rfl
  | cons j js ih => rw [renderItems, ih, List.map_cons]

theorem toList_renderMembers (members : List (Token × Json)) :
    (renderMembers members).map String.toList = members.map memberText := by
  induction members with
  | nil => rfl
  | cons m members ih =>
    rw [renderMembers, List.map_cons, List.map_cons, ih]
    simp [memberText]

/-- After the first of them, every piece has a comma before it. -/
theorem intercalate_cons (piece : List Char) (pieces : List (List Char)) :
    [','].intercalate (piece :: pieces) = piece ++ pieces.flatMap (',' :: ·) := by
  induction pieces generalizing piece with
  | nil => simp [List.intercalate]
  | cons next pieces ih =>
    have hcons : [','].intercalate (piece :: next :: pieces) =
        piece ++ ',' :: [','].intercalate (next :: pieces) := by simp [List.intercalate]
    rw [hcons, ih, List.flatMap_cons, List.cons_append]

theorem toList_render_array (js : List Json) (ending : Ending) :
    (render (.array js ending)).toList =
      '[' :: ([','].intercalate (js.map fun j => (render j).toList) ++ [']']) := by
  simp [render, renderItems_eq_map, Function.comp_def]

theorem toList_render_object (members : List (Token × Json)) (ending : Ending) :
    (render (.object members ending)).toList =
      '{' :: ([','].intercalate (members.map memberText) ++ ['}']) := by
  simp [render, toList_renderMembers]

theorem isSpace_of_isDigit (h : c.isDigit = true) : isSpace c = false := by
  rw [Bool.eq_false_iff]
  intro hspace
  simp only [isSpace, Bool.or_eq_true, beq_iff_eq] at hspace
  rcases hspace with ((rfl | rfl) | rfl) | rfl <;> cases h

/-- The text of a complete document begins with a character that is neither a blank nor a bracket
that closes a list. -/
theorem exists_render_cons (h : Complete j) :
    ∃ c cs, (render j).toList = c :: cs ∧ isSpace c = false ∧ c ≠ ']' := by
  cases h with
  | null => exact ⟨'n', _, rfl, rfl, by decide⟩
  | bool b =>
    cases b with
    | true => exact ⟨'t', _, rfl, rfl, by decide⟩
    | false => exact ⟨'f', _, rfl, rfl, by decide⟩
  | number n =>
    obtain ⟨c, cs, hdigits⟩ := List.exists_cons_of_ne_nil (Nat.toDigits_ne_nil (n := n) (b := 10))
    have hc : c.isDigit = true := Nat.isDigit_of_mem_toDigits (by decide) (by decide)
      (hdigits ▸ List.mem_cons_self)
    refine ⟨c, cs, (toList_render_ofNat n).trans hdigits, isSpace_of_isDigit hc, ?_⟩
    rintro rfl
    cases hc
  | string s => exact ⟨'"', _, toList_quote s, rfl, by decide⟩
  | array _ => exact ⟨'[', _, toList_render_array .., rfl, by decide⟩
  | object _ _ => exact ⟨'{', _, toList_render_object .., rfl, by decide⟩

theorem skipSpace_cons (h : isSpace c = false) (cs : List Char) : skipSpace (c :: cs) = c :: cs :=
  List.dropWhile_cons_of_neg (Bool.eq_false_iff.1 h)

/-! ## Lists read back -/

/-- The document is scanned from its text, before what does not go on with a number. -/
def ReadBack (j : Json) : Prop :=
  ∀ fuel rest, 3 * (render j).toList.length ≤ fuel → Stops rest →
    value fuel ((render j).toList ++ rest) = (j, rest)

theorem stops_comma (cs : List Char) : Stops (',' :: cs) := by
  rintro c ⟨⟩
  decide

theorem stops_bracket (cs : List Char) : Stops (']' :: cs) := by
  rintro c ⟨⟩
  decide

theorem stops_brace (cs : List Char) : Stops ('}' :: cs) := by
  rintro c ⟨⟩
  decide

theorem more_render (hj : Complete j) (hread : ReadBack j) (hfuel : 3 * (render j).toList.length ≤ fuel)
    (hrest : Stops rest) : more (fuel + 1) ((render j).toList ++ rest) =
      (j :: (items fuel false rest).1, (items fuel false rest).2) := by
  unfold more
  rw [hread fuel rest hfuel hrest]
  cases hj <;> rfl

/-- The items behind the first. -/
def itemsText (js : List Json) : List Char :=
  js.flatMap fun j => ',' :: (render j).toList

theorem stops_itemsText (js : List Json) (rest : List Char) : Stops (itemsText js ++ ']' :: rest) := by
  cases js with
  | nil => exact stops_bracket rest
  | cons j js => exact stops_comma _

theorem items_first (hj : Complete j) (rest : List Char) :
    items (fuel + 1) true ((render j).toList ++ rest) = more fuel ((render j).toList ++ rest) := by
  obtain ⟨c, cs, htext, hspace, hbracket⟩ := exists_render_cons hj
  rw [htext, List.cons_append]
  unfold items
  rw [skipSpace_cons hspace]
  split
  case h_1 heq => cases heq
  case h_2 heq => exact absurd (List.cons.inj heq).1 hbracket
  case h_3 heq =>
    cases heq
    rfl

theorem items_comma (hj : Complete j) (rest : List Char) :
    items (fuel + 1) false (',' :: ((render j).toList ++ rest)) =
      more fuel ((render j).toList ++ rest) := by
  obtain ⟨c, cs, htext, hspace, hbracket⟩ := exists_render_cons hj
  rw [htext, List.cons_append]
  unfold items
  rw [skipSpace_cons rfl]
  split
  case h_1 heq => cases heq
  case h_2 heq => exact absurd (List.cons.inj heq).1 (by decide)
  case h_3 heq =>
    obtain ⟨rfl, rfl⟩ := List.cons.inj heq
    simp only [Bool.false_eq_true, if_false, if_true, skipSpace_cons hspace]
    split
    case h_1 heq => cases heq
    case h_2 heq => exact absurd (List.cons.inj heq).1 hbracket
    case h_3 => rfl

theorem items_tail (hjs : ∀ j ∈ js, Complete j ∧ ReadBack j)
    (hfuel : 3 * ((itemsText js).length + 1) ≤ fuel) :
    items fuel false (itemsText js ++ ']' :: rest) = (js, .closed, rest) := by
  induction js generalizing fuel with
  | nil =>
    obtain ⟨fuel, rfl⟩ := Nat.exists_eq_add_one_of_ne_zero (show fuel ≠ 0 by omega)
    rfl
  | cons j js ih =>
    obtain ⟨hj, hread⟩ := hjs j List.mem_cons_self
    have hlength : (itemsText (j :: js)).length = (render j).toList.length + 1 + (itemsText js).length := by
      simp [itemsText]
      omega
    obtain ⟨fuel, rfl⟩ := Nat.exists_eq_add_of_le' (show 2 ≤ fuel by omega)
    have htext : itemsText (j :: js) ++ ']' :: rest =
        ',' :: ((render j).toList ++ (itemsText js ++ ']' :: rest)) := by simp [itemsText]
    rw [htext, items_comma hj, more_render hj hread (by omega) (stops_itemsText js rest),
      ih (fun k hk => hjs k (List.mem_cons_of_mem j hk)) (by omega)]

/-- A list of items is read up to its bracket. -/
theorem items_read (hjs : ∀ j ∈ js, Complete j ∧ ReadBack j)
    (hfuel : 3 * ([','].intercalate (js.map fun j => (render j).toList) ++ [']']).length ≤ fuel) :
    items fuel true ([','].intercalate (js.map fun j => (render j).toList) ++ ']' :: rest) =
      (js, .closed, rest) := by
  cases js with
  | nil =>
    obtain ⟨fuel, rfl⟩ := Nat.exists_eq_add_one_of_ne_zero (show fuel ≠ 0 by simp at hfuel; omega)
    rfl
  | cons j js =>
    obtain ⟨hj, hread⟩ := hjs j List.mem_cons_self
    have htext : [','].intercalate ((j :: js).map fun j => (render j).toList) =
        (render j).toList ++ itemsText js := by
      rw [List.map_cons, intercalate_cons, itemsText, List.flatMap_map]
    have hpos : 0 < (render j).toList.length := by
      obtain ⟨c, cs, hrender, -⟩ := exists_render_cons hj
      rw [hrender]
      exact Nat.succ_pos _
    rw [htext, List.length_append, List.length_append, List.length_singleton] at hfuel
    obtain ⟨fuel, rfl⟩ := Nat.exists_eq_add_of_le' (show 2 ≤ fuel by omega)
    rw [htext, List.append_assoc, items_first hj,
      more_render hj hread (by omega) (stops_itemsText js rest),
      items_tail (fun k hk => hjs k (List.mem_cons_of_mem j hk)) (by omega)]

/-! ## Members -/

/-- The members behind the first. -/
def membersText (members : List (Token × Json)) : List Char :=
  members.flatMap fun m => ',' :: memberText m

theorem stops_membersText (members : List (Token × Json)) (rest : List Char) :
    Stops (membersText members ++ '}' :: rest) := by
  cases members with
  | nil => exact stops_brace rest
  | cons m members => exact stops_comma _

/-- The characters of a member behind its opening quote. -/
theorem memberText_eq (m : Token × Json) : memberText m =
    '"' :: (m.1.text.toList.flatMap escaped ++ '"' :: ':' :: (render m.2).toList) := by
  simp [memberText, toList_quote]

theorem member_render {text : String} (hj : Complete j) (hread : ReadBack j)
    (hfuel : 3 * (render j).toList.length ≤ fuel) (hrest : Stops rest) :
    member (fuel + 1) (text.toList.flatMap escaped ++ '"' :: ':' :: ((render j).toList ++ rest)) =
      ((⟨text, true⟩, j) :: (Json.members fuel false rest).1, (Json.members fuel false rest).2) := by
  have hcolon : skipSpace (':' :: ((render j).toList ++ rest)) = ':' :: ((render j).toList ++ rest) :=
    skipSpace_cons rfl _
  unfold member
  simp only [token_quoted, hcolon, hread fuel rest hfuel hrest]
  cases hj <;> rfl

theorem members_tail (hmembers : ∀ m ∈ members, m.1.paired = true ∧ Complete m.2 ∧ ReadBack m.2)
    (hfuel : 3 * ((membersText members).length + 1) ≤ fuel) :
    Json.members fuel false (membersText members ++ '}' :: rest) = (members, .closed, rest) := by
  induction members generalizing fuel with
  | nil =>
    obtain ⟨fuel, rfl⟩ := Nat.exists_eq_add_one_of_ne_zero (show fuel ≠ 0 by omega)
    rfl
  | cons m members ih =>
    obtain ⟨hkey, hj, hread⟩ := hmembers m List.mem_cons_self
    have hlength : (render m.2).toList.length + (membersText members).length + 1 ≤
        (membersText (m :: members)).length := by
      simp [membersText, memberText_eq]
      omega
    obtain ⟨fuel, rfl⟩ := Nat.exists_eq_add_of_le' (show 2 ≤ fuel by omega)
    have htext : membersText (m :: members) ++ '}' :: rest =
        ',' :: '"' :: (m.1.text.toList.flatMap escaped ++
          '"' :: ':' :: ((render m.2).toList ++ (membersText members ++ '}' :: rest))) := by
      simp [membersText, memberText_eq]
    have htoken : m.1 = ⟨m.1.text, true⟩ := by rw [← hkey]
    rw [htext]
    show member (fuel + 1) _ = _
    rw [member_render hj hread (by omega) (stops_membersText members rest), ← htoken,
      ih (fun k hk => hmembers k (List.mem_cons_of_mem m hk)) (by omega)]

/-- A list of members is read up to its brace. -/
theorem members_read (hmembers : ∀ m ∈ members, m.1.paired = true ∧ Complete m.2 ∧ ReadBack m.2)
    (hfuel : 3 * ([','].intercalate (members.map memberText) ++ ['}']).length ≤ fuel) :
    Json.members fuel true ([','].intercalate (members.map memberText) ++ '}' :: rest) =
      (members, .closed, rest) := by
  cases members with
  | nil =>
    obtain ⟨fuel, rfl⟩ := Nat.exists_eq_add_one_of_ne_zero (show fuel ≠ 0 by simp at hfuel; omega)
    rfl
  | cons m members =>
    obtain ⟨hkey, hj, hread⟩ := hmembers m List.mem_cons_self
    have htext : [','].intercalate ((m :: members).map memberText) =
        memberText m ++ membersText members := by
      rw [List.map_cons, intercalate_cons, membersText, List.flatMap_map]
    have hlength : (render m.2).toList.length + 2 ≤ (memberText m).length := by
      simp [memberText_eq]
      omega
    have hsplit : memberText m ++ membersText members ++ '}' :: rest =
        '"' :: (m.1.text.toList.flatMap escaped ++
          '"' :: ':' :: ((render m.2).toList ++ (membersText members ++ '}' :: rest))) := by
      simp [memberText_eq]
    have htoken : m.1 = ⟨m.1.text, true⟩ := by rw [← hkey]
    rw [htext, List.length_append, List.length_append, List.length_singleton] at hfuel
    obtain ⟨fuel, rfl⟩ := Nat.exists_eq_add_of_le' (show 2 ≤ fuel by omega)
    rw [htext, hsplit]
    show member (fuel + 1) _ = _
    rw [member_render hj hread (by omega) (stops_membersText members rest), ← htoken,
      members_tail (fun k hk => hmembers k (List.mem_cons_of_mem m hk)) (by omega)]

/-! ## Documents -/

/-- A text has a character, so there is fuel for one step. -/
theorem readBack_of_succ (hj : Complete j)
    (h : ∀ fuel rest, 3 * (render j).toList.length ≤ fuel + 1 → Stops rest →
      value (fuel + 1) ((render j).toList ++ rest) = (j, rest)) : ReadBack j := by
  intro fuel rest hfuel hrest
  cases fuel with
  | zero =>
    obtain ⟨c, cs, htext, -⟩ := exists_render_cons hj
    rw [htext, List.length_cons] at hfuel
    omega
  | succ fuel => exact h fuel rest hfuel hrest

theorem readBack_number (n : ℕ) : ReadBack (.number (.ofNat n)) := by
  refine readBack_of_succ (.number n) fun fuel rest _ hrest => ?_
  obtain ⟨c, cs, hdigits⟩ := List.exists_cons_of_ne_nil (Nat.toDigits_ne_nil (n := n) (b := 10))
  have hc : c.isDigit = true := Nat.isDigit_of_mem_toDigits (by decide) (by decide)
    (hdigits ▸ List.mem_cons_self)
  have hliteral := literal_toDigits n hrest
  rw [hdigits, List.cons_append] at hliteral
  rw [toList_render_ofNat, hdigits, List.cons_append]
  unfold value
  rw [skipSpace_cons (isSpace_of_isDigit hc)]
  split
  case h_9 heq =>
    cases heq
    rw [if_pos hc, hliteral]
    rfl
  case h_1 heq => cases heq
  all_goals
    rename_i heq
    obtain ⟨rfl, -⟩ := List.cons.inj heq
    cases hc

theorem readBack_string (s : String) : ReadBack (.string ⟨s, true⟩) := by
  refine readBack_of_succ (.string s) fun fuel rest _ _ => ?_
  rw [show render (.string ⟨s, true⟩) = quote s by simp [render], toList_quote, List.cons_append,
    List.append_assoc, List.singleton_append]
  unfold value
  rw [skipSpace_cons rfl]
  simp only [token_quoted]

theorem readBack_array (hjs : ∀ j ∈ js, Complete j ∧ ReadBack j) : ReadBack (.array js .closed) := by
  refine readBack_of_succ (.array fun j hj => (hjs j hj).1) fun fuel rest hfuel _ => ?_
  rw [toList_render_array] at hfuel ⊢
  rw [List.length_cons] at hfuel
  rw [List.cons_append, List.append_assoc, List.singleton_append]
  unfold value
  rw [skipSpace_cons rfl]
  simp only [items_read hjs (show _ ≤ fuel by omega)]

theorem readBack_object (hmembers : ∀ m ∈ members, m.1.paired = true ∧ Complete m.2 ∧ ReadBack m.2) :
    ReadBack (.object members .closed) := by
  refine readBack_of_succ (.object (fun m hm => (hmembers m hm).1) fun m hm => (hmembers m hm).2.1)
    fun fuel rest hfuel _ => ?_
  rw [toList_render_object] at hfuel ⊢
  rw [List.length_cons] at hfuel
  rw [List.cons_append, List.append_assoc, List.singleton_append]
  unfold value
  rw [skipSpace_cons rfl]
  simp only [members_read hmembers (show _ ≤ fuel by omega)]

theorem Complete.readBack (h : Complete j) : ReadBack j := by
  induction h with
  | null => exact readBack_of_succ .null fun _ _ _ _ => rfl
  | bool b => cases b <;> exact readBack_of_succ (.bool _) fun _ _ _ _ => rfl
  | number n => exact readBack_number n
  | string s => exact readBack_string s
  | array h ih => exact readBack_array fun j hj => ⟨h j hj, ih j hj⟩
  | object hkeys h ih => exact readBack_object fun m hm => ⟨hkeys m hm, h m hm, ih m hm⟩

/-- The text of a complete document is scanned as that document. -/
theorem scan_render (h : Complete j) : scan (render j) = ⟨j, false⟩ := by
  have hvalue := h.readBack (3 * (render j).toList.length + 3) [] (by omega) stops_nil
  rw [List.append_nil] at hvalue
  simp only [scan, hvalue]
  rfl

end HostServices.Json
