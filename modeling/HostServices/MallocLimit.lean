import HostServices.Category
import HostServices.SizeText
import HostServices.Text.Split

/-!
# Malloc ceilings

A ceiling for all accounted bytes and one for each category, each optional. The text form is a
list of entries between commas: a bare size is the ceiling for all bytes, `name:size` the ceiling
of a category.
-/

namespace HostServices

/-- The ceilings in force. -/
@[ext] structure MallocLimit where
  total : Option UInt64
  category : Category → Option UInt64

namespace MallocLimit

/-- No ceilings. -/
def none : MallocLimit where
  total := .none
  category _ := .none

/-- The ceiling for all bytes. -/
def withTotal (limit : MallocLimit) (bytes : UInt64) : MallocLimit :=
  { limit with total := some bytes }

/-- The ceiling of one category. -/
def withCategory (limit : MallocLimit) (c : Category) (bytes : UInt64) : MallocLimit :=
  { limit with category := fun d => if d = c then some bytes else limit.category d }

/-- No ceiling is set. -/
def isNone (limit : MallocLimit) : Bool :=
  limit.total.isNone && Category.all.all fun c => (limit.category c).isNone

instance : DecidableEq MallocLimit := fun a b =>
  if h : a.total = b.total ∧ ∀ c ∈ Category.all, a.category c = b.category c then
    isTrue (MallocLimit.ext h.1 (funext fun c => h.2 c (Category.mem_all c)))
  else
    isFalse fun hab => h (hab ▸ ⟨rfl, fun _ _ => rfl⟩)

/-- Why a text does not describe ceilings. -/
inductive Problem
  | duplicateTotal
  | unknownCategory (name : List Char)
  | duplicateCategory (c : Category)
  | size (problem : SizeText.Problem)
  deriving DecidableEq, Repr

/-- The text of a problem. -/
def Problem.message : Problem → String
  | duplicateTotal => "duplicate total malloc limit"
  | unknownCategory name => s!"unknown memory category \"{String.ofList name}\""
  | duplicateCategory c => s!"duplicate malloc limit for {c.shortName}"
  | size problem => problem.message

/-- The entries of a text: what stands between commas, without the blanks around it, unless
nothing is left. -/
def entries (text : List Char) : List (List Char) :=
  ((Text.split ',' text).map Text.trim).filter (· ≠ [])

/-- Add one entry. A second entry for the same ceiling is refused before its size is read. -/
def addEntry (limit : MallocLimit) (entry : List Char) : Except Problem MallocLimit :=
  match Text.cut? ':' entry with
  | .none =>
    if limit.total.isSome then .error .duplicateTotal
    else ((SizeText.parse entry).mapError .size).map limit.withTotal
  | some (name, size) =>
    match Category.ofName? name with
    | .none => .error (.unknownCategory name)
    | some c =>
      if (limit.category c).isSome then .error (.duplicateCategory c)
      else ((SizeText.parse size).mapError .size).map (limit.withCategory c)

/-- Read ceilings. -/
def parse (text : List Char) : Except Problem MallocLimit :=
  (entries text).foldlM addEntry none

/-- The printed entry of a category, if it has a ceiling. -/
def categoryEntry? (limit : MallocLimit) (c : Category) : Option (List Char) :=
  (limit.category c).map fun bytes => c.shortName.toList ++ ':' :: SizeText.render bytes

/-- Print ceilings: the one for all bytes first, then the categories in report order. -/
def render (limit : MallocLimit) : List Char :=
  [','].intercalate
    ((limit.total.map SizeText.render).toList ++ Category.all.filterMap limit.categoryEntry?)

/-- The printed form as a string. -/
def text (limit : MallocLimit) : String :=
  String.ofList limit.render

end MallocLimit

end HostServices
