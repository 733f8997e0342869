import HostServices.MallocLimit
import HostServices.Proofs.Checked
import HostServices.Proofs.SizeText

/-!
# Which texts set ceilings

An entry sets the ceiling of its target, a category or all bytes (`Sets`), and reading it does just
that if the target is free (`addEntry_eq_ok_iff`). So a list of entries is read if all of them set
something and no two the same, and what is set then is what some entry sets
(`foldlM_addEntry_eq_ok_iff`): the order of the entries plays no part (`parse_follows_grammar`).
-/

namespace HostServices

/-! ## Names in configuration text -/

namespace Category

variable {c : Category} {cs : List Char}

theorem ofShortName?_eq_some_iff : ofShortName? cs = some c ↔ cs = c.shortName.toList := by
  constructor
  · intro h
    have hfound := List.find?_some h
    exact (of_decide_eq_true hfound).symm
  · rintro rfl
    cases c <;> decide

/-- No short name begins with `mt`. -/
theorem ofShortName?_of_mt (c : Category) : ofShortName? ('m' :: 't' :: c.shortName.toList) = none := by
  cases c <;> decide

/-- The text names a category: between its blanks stands the short name in any case, or `mt` and the
short name. -/
def Named (cs : List Char) (c : Category) : Prop :=
  ∃ word, Text.Trimmed cs word ∧
    (word.map Char.toLower = c.shortName.toList ∨
      word.map Char.toLower = 'm' :: 't' :: c.shortName.toList)

theorem ofName?_eq_some_iff : ofName? cs = some c ↔ Named cs c := by
  have hnormalize : Named cs c ↔
      normalize cs = c.shortName.toList ∨ normalize cs = 'm' :: 't' :: c.shortName.toList := by
    constructor
    · rintro ⟨word, htrimmed, hname⟩
      rwa [normalize, Text.trim_eq_iff.2 htrimmed]
    · exact fun hname => ⟨Text.trim cs, Text.trim_eq_iff.1 rfl, hname⟩
  rw [hnormalize, ofName?, Option.or_eq_some_iff, ofShortName?_eq_some_iff]
  refine or_congr_right ?_
  constructor
  · rintro ⟨-, hprefixed⟩
    split at hprefixed
    case h_1 rest heq => rw [heq, ofShortName?_eq_some_iff.1 hprefixed]
    case h_2 => cases hprefixed
  · intro heq
    rw [heq]
    exact ⟨ofShortName?_of_mt c, ofShortName?_eq_some_iff.2 rfl⟩

end Category

namespace MallocLimit

variable {limit limit' base : MallocLimit} {entry : List Char} {entries : List (List Char)}
  {target target' : Option Category} {bytes bytes' : UInt64}

/-! ## Ceilings by target -/

/-- The ceiling of a category, or the one for all bytes. -/
def ceiling (limit : MallocLimit) : Option Category → Option UInt64
  | .none => limit.total
  | some c => limit.category c

/-- Set one ceiling. -/
def withCeiling (limit : MallocLimit) (target : Option Category) (bytes : UInt64) : MallocLimit :=
  match target with
  | .none => limit.withTotal bytes
  | some c => limit.withCategory c bytes

theorem ext_ceiling (h : ∀ target, limit.ceiling target = limit'.ceiling target) : limit = limit' :=
  MallocLimit.ext (h .none) (funext fun c => h (some c))

theorem ceiling_withCeiling (limit : MallocLimit) (target : Option Category) (bytes : UInt64)
    (other : Option Category) : (limit.withCeiling target bytes).ceiling other =
      if other = target then some bytes else limit.ceiling other := by
  cases target <;> cases other <;> simp [withCeiling, withTotal, withCategory, ceiling]

theorem ceiling_none (target : Option Category) : none.ceiling target = .none := by
  cases target <;> rfl

/-! ## One entry -/

/-- The entry sets a ceiling: it is a size, or the name of a category, a colon and a size. -/
inductive Sets : List Char → Option Category → UInt64 → Prop
  | total {entry : List Char} {bytes : UInt64} (hsize : SizeText.Denotes entry bytes) :
    Sets entry .none bytes
  | category {name size : List Char} {c : Category} {bytes : UInt64} (hcolon : ':' ∉ name)
      (hname : Category.Named name c) (hsize : SizeText.Denotes size bytes) :
    Sets (name ++ ':' :: size) (some c) bytes

theorem map_mapError_eq_ok_iff {ε ε' α β : Type} {x : Except ε α} {f : ε → ε'} {g : α → β} {b : β} :
    (x.mapError f).map g = .ok b ↔ ∃ a, x = .ok a ∧ b = g a := by
  cases x <;> simp [Except.mapError, Except.map, eq_comm]

/-- An entry is read if its target has no ceiling yet. -/
theorem addEntry_eq_ok_iff : addEntry limit entry = .ok limit' ↔
    ∃ target bytes, Sets entry target bytes ∧ limit.ceiling target = .none ∧
      limit' = limit.withCeiling target bytes := by
  unfold addEntry
  constructor
  · intro h
    split at h
    case h_1 =>
      split at h
      case isTrue => cases h
      case isFalse hfree =>
        obtain ⟨bytes, hsize, rfl⟩ := map_mapError_eq_ok_iff.1 h
        exact ⟨.none, bytes, .total (SizeText.parse_eq_ok_iff.1 hsize),
          Option.not_isSome_iff_eq_none.1 hfree, rfl⟩
    case h_2 name size hcut =>
      obtain ⟨rfl, hcolon⟩ := Text.cut?_eq_some_iff.1 hcut
      split at h
      case h_1 => cases h
      case h_2 c hname =>
        split at h
        case isTrue => cases h
        case isFalse hfree =>
          obtain ⟨bytes, hsize, rfl⟩ := map_mapError_eq_ok_iff.1 h
          exact ⟨some c, bytes,
            .category hcolon (Category.ofName?_eq_some_iff.1 hname) (SizeText.parse_eq_ok_iff.1 hsize),
            Option.not_isSome_iff_eq_none.1 hfree, rfl⟩
  · rintro ⟨target, bytes, hsets, hfree, rfl⟩
    cases hsets with
    | total hsize =>
      have htotal : limit.total = .none := hfree
      rw [Text.cut?_eq_none_iff.2 hsize.colon_notMem]
      dsimp only
      rw [htotal]
      exact map_mapError_eq_ok_iff.2 ⟨bytes, SizeText.parse_eq_ok_iff.2 hsize, rfl⟩
    | @category name size c bytes hcolon hname hsize =>
      have hcategory : limit.category c = .none := hfree
      rw [Text.cut?_eq_some_iff.2 ⟨rfl, hcolon⟩]
      dsimp only
      rw [Category.ofName?_eq_some_iff.2 hname]
      dsimp only
      rw [hcategory]
      exact map_mapError_eq_ok_iff.2 ⟨bytes, SizeText.parse_eq_ok_iff.2 hsize, rfl⟩

/-- An entry sets one ceiling. -/
theorem Sets.unique (h : Sets entry target bytes) (h' : Sets entry target' bytes') :
    target' = target ∧ bytes' = bytes := by
  have hread := addEntry_eq_ok_iff.2 ⟨target, bytes, h, ceiling_none target, rfl⟩
  have hread' := addEntry_eq_ok_iff.2 ⟨target', bytes', h', ceiling_none target', rfl⟩
  have heq := congrArg (ceiling · target') (Except.ok.inj (hread.symm.trans hread'))
  simp only [ceiling_withCeiling, if_true, ceiling_none] at heq
  split at heq
  case isTrue htarget => exact ⟨htarget, (Option.some.inj heq).symm⟩
  case isFalse => cases heq

/-! ## All entries -/

/-- No two of the entries set the same ceiling. -/
def Distinct (entries : List (List Char)) : Prop :=
  entries.Pairwise fun entry other =>
    ∀ target bytes bytes', Sets entry target bytes → ¬ Sets other target bytes'

/-- The entries set different ceilings, none of which is in `base`. -/
structure Acceptable (base : MallocLimit) (entries : List (List Char)) : Prop where
  each : ∀ entry ∈ entries, ∃ target bytes, Sets entry target bytes ∧ base.ceiling target = .none
  distinct : Distinct entries

theorem Acceptable.perm {entries' : List (List Char)} (h : Acceptable base entries)
    (hperm : entries.Perm entries') : Acceptable base entries' where
  each entry hentry := h.each entry (hperm.mem_iff.2 hentry)
  distinct := h.distinct.perm hperm fun hne target bytes bytes' hsets hsets' =>
    hne target bytes' bytes hsets' hsets

theorem acceptable_nil (base : MallocLimit) : Acceptable base [] :=
  ⟨fun _ hentry => absurd hentry List.not_mem_nil, .nil⟩

/-- What the first entry sets is no longer free for the others. -/
theorem acceptable_cons_iff (h : Sets entry target bytes) : Acceptable base (entry :: entries) ↔
    base.ceiling target = .none ∧ Acceptable (base.withCeiling target bytes) entries := by
  constructor
  · rintro ⟨heach, hdistinct⟩
    obtain ⟨hfirst, hrest⟩ := List.pairwise_cons.1 hdistinct
    obtain ⟨t, n, hsets, hfree⟩ := heach entry List.mem_cons_self
    obtain ⟨rfl, rfl⟩ := h.unique hsets
    refine ⟨hfree, fun other hother => ?_, hrest⟩
    obtain ⟨u, m, hsets', hfree'⟩ := heach other (List.mem_cons_of_mem entry hother)
    have hne : u ≠ t := fun heq => hfirst other hother u n m (heq ▸ hsets) hsets'
    exact ⟨u, m, hsets', by rw [ceiling_withCeiling, if_neg hne, hfree']⟩
  · rintro ⟨hfree, heach, hdistinct⟩
    have hother (other) (hother : other ∈ entries) :
        ∃ u m, Sets other u m ∧ u ≠ target ∧ base.ceiling u = .none := by
      obtain ⟨u, m, hsets, hfree'⟩ := heach other hother
      rw [ceiling_withCeiling] at hfree'
      split at hfree'
      case isTrue => cases hfree'
      case isFalse hne => exact ⟨u, m, hsets, hne, hfree'⟩
    refine ⟨List.forall_mem_cons.2 ⟨⟨target, bytes, h, hfree⟩, fun other hmem => ?_⟩,
      List.pairwise_cons.2 ⟨fun other hmem t n m hfirst hsecond => ?_, hdistinct⟩⟩
    · obtain ⟨u, m, hsets, -, hfree'⟩ := hother other hmem
      exact ⟨u, m, hsets, hfree'⟩
    · obtain ⟨u, m, hsets, hne, -⟩ := hother other hmem
      exact hne ((hsecond.unique hsets).1.trans (h.unique hfirst).1)

theorem ceiling_withCeiling_eq_some_iff (h : Sets entry target bytes)
    (hfree : base.ceiling target = .none) :
    (base.withCeiling target bytes).ceiling target' = some bytes' ↔
      base.ceiling target' = some bytes' ∨ Sets entry target' bytes' := by
  rw [ceiling_withCeiling]
  split
  case isTrue heq =>
    subst heq
    rw [hfree]
    constructor
    · rintro ⟨⟩
      exact .inr h
    · rintro (hnone | hsets)
      · cases hnone
      · rw [(h.unique hsets).2]
  case isFalse hne =>
    exact ⟨.inl, fun hor => hor.resolve_right fun hsets => hne (h.unique hsets).1⟩

/-- Entries are read if they are acceptable, and the ceilings that they set are added. -/
theorem foldlM_addEntry_eq_ok_iff : entries.foldlM addEntry base = .ok limit ↔
    Acceptable base entries ∧ ∀ target bytes, limit.ceiling target = some bytes ↔
      base.ceiling target = some bytes ∨ ∃ entry ∈ entries, Sets entry target bytes := by
  induction entries generalizing base with
  | nil =>
    simp only [List.foldlM_nil, List.not_mem_nil, false_and, exists_false, or_false]
    refine ⟨?_, fun h => ?_⟩
    · intro h
      obtain rfl := Except.ok.inj h
      exact ⟨acceptable_nil base, fun _ _ => Iff.rfl⟩
    · obtain rfl : limit = base := ext_ceiling fun target => Option.ext fun bytes => h.2 target bytes
      rfl
  | cons entry entries ih =>
    rw [List.foldlM_cons, Checked.bind_eq_ok_iff]
    constructor
    · rintro ⟨next, hread, hrest⟩
      obtain ⟨target, bytes, hsets, hfree, rfl⟩ := addEntry_eq_ok_iff.1 hread
      obtain ⟨hacceptable, hceiling⟩ := ih.1 hrest
      refine ⟨(acceptable_cons_iff hsets).2 ⟨hfree, hacceptable⟩, fun t n => ?_⟩
      simp only [hceiling, ceiling_withCeiling_eq_some_iff hsets hfree, List.mem_cons,
        exists_eq_or_imp, or_assoc]
    · rintro ⟨hacceptable, hceiling⟩
      obtain ⟨target, bytes, hsets, -⟩ := hacceptable.each entry List.mem_cons_self
      obtain ⟨hfree, hrest⟩ := (acceptable_cons_iff hsets).1 hacceptable
      refine ⟨_, addEntry_eq_ok_iff.2 ⟨target, bytes, hsets, hfree, rfl⟩,
        ih.2 ⟨hrest, fun t n => ?_⟩⟩
      simp only [hceiling, ceiling_withCeiling_eq_some_iff hsets hfree, List.mem_cons,
        exists_eq_or_imp, or_assoc]

theorem exists_foldlM_addEntry (h : Acceptable base entries) :
    ∃ limit, entries.foldlM addEntry base = .ok limit := by
  induction entries generalizing base with
  | nil => exact ⟨base, rfl⟩
  | cons entry entries ih =>
    obtain ⟨target, bytes, hsets, -⟩ := h.each entry List.mem_cons_self
    obtain ⟨hfree, hrest⟩ := (acceptable_cons_iff hsets).1 h
    rw [List.foldlM_cons, addEntry_eq_ok_iff.2 ⟨target, bytes, hsets, hfree, rfl⟩]
    exact ih hrest

/-! ## Whole texts -/

/-- What a text lists: the pieces between its commas, each without the blanks at its ends, but for
those that are empty then. -/
def listed (text : List Char) : List (List Char) :=
  ((text.splitOn ',').map Text.trim).filter (· ≠ [])

theorem parse_eq (text : List Char) : parse text = (listed text).foldlM addEntry none := by
  rw [parse, MallocLimit.entries, Text.split_eq_splitOn, listed]

/-- A text is read if each of its entries sets a ceiling, and no two the same. What is read then are
the ceilings that some entry sets, in whatever order the entries come. -/
theorem parse_follows_grammar (text : String) :
    ((∃ limit, parse text.toList = .ok limit) ↔
      (∀ entry ∈ listed text.toList, ∃ target bytes, Sets entry target bytes) ∧
        Distinct (listed text.toList)) ∧
    ∀ limit, parse text.toList = .ok limit →
      (∀ target bytes, limit.ceiling target = some bytes ↔
        ∃ entry ∈ listed text.toList, Sets entry target bytes) ∧
      ∀ other : String, (listed other.toList).Perm (listed text.toList) →
        parse other.toList = .ok limit := by
  have hnone (target : Option Category) (bytes : UInt64) : none.ceiling target ≠ some bytes := by
    rw [ceiling_none]
    exact nofun
  have hread (text : String) (limit : MallocLimit) : parse text.toList = .ok limit ↔
      Acceptable none (listed text.toList) ∧ ∀ target bytes, limit.ceiling target = some bytes ↔
        ∃ entry ∈ listed text.toList, Sets entry target bytes := by
    simp only [parse_eq, foldlM_addEntry_eq_ok_iff, hnone, false_or]
  refine ⟨⟨?_, ?_⟩, fun limit hlimit => ?_⟩
  · rintro ⟨limit, hlimit⟩
    obtain ⟨heach, hdistinct⟩ := ((hread text limit).1 hlimit).1
    refine ⟨fun entry hentry => ?_, hdistinct⟩
    obtain ⟨target, bytes, hsets, -⟩ := heach entry hentry
    exact ⟨target, bytes, hsets⟩
  · rintro ⟨heach, hdistinct⟩
    refine parse_eq text.toList ▸ exists_foldlM_addEntry ⟨fun entry hentry => ?_, hdistinct⟩
    obtain ⟨target, bytes, hsets⟩ := heach entry hentry
    exact ⟨target, bytes, hsets, ceiling_none target⟩
  · obtain ⟨hacceptable, hceiling⟩ := (hread text limit).1 hlimit
    refine ⟨hceiling, fun other hperm => (hread other limit).2
      ⟨hacceptable.perm hperm.symm, fun target bytes => ?_⟩⟩
    rw [hceiling]
    exact exists_congr fun entry => and_congr_left' hperm.mem_iff.symm

end MallocLimit

end HostServices
