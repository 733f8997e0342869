import HostServices.Json.Scanner

/-!
# Typed readings of documents

A record may be written as an object, whose members come in any order and may be missing, or as an
array of its leading fields. Unknown members are passed over; a repeated one is refused.
-/

namespace HostServices.Json

/-- The problem with a value that is not of the expected kind. -/
def mismatch : Json → Problem
  | broken b => b.read
  | number n => if n.isHuge then .malformed else .unfit
  | string t => if t.paired then .unfit else .malformed
  | _ => .unfit

mutual

/-- Pass over a value of any kind. -/
def pass : Json → Except Problem Unit
  | array items ending => do
    passItems items
    passEnding ending
  | object members ending => do
    passMembers members
    passEnding ending
  | broken b => .error b.skip
  | null | bool _ | number _ | string _ => .ok ()

/-- Pass over items. -/
def passItems : List Json → Except Problem Unit
  | [] => .ok ()
  | j :: js => do
    pass j
    passItems js

/-- Pass over members. -/
def passMembers : List (Token × Json) → Except Problem Unit
  | [] => .ok ()
  | (_, j) :: js => do
    pass j
    passMembers js

/-- Pass over an ending. -/
def passEnding : Ending → Except Problem Unit
  | .closed => .ok ()
  | .cut _ b => .error b.skip

end

/-- A truth value. -/
def toBool : Json → Except Problem Bool
  | bool b => .ok b
  | j => .error j.mismatch

/-- A number that is a word. -/
def toWord : Json → Except Problem UInt64
  | number n =>
    if n.whole ∧ ¬n.negative ∧ n.digits < UInt64.size then .ok (UInt64.ofNat n.digits)
    else .error (number n).mismatch
  | j => .error j.mismatch

/-- A string. -/
def toText : Json → Except Problem String
  | string t => if t.paired then .ok t.text else .error .malformed
  | j => .error j.mismatch

/-- A value or null. -/
def toOption {α : Type} (read : Json → Except Problem α) : Json → Except Problem (Option α)
  | null => .ok none
  | j => (read j).map some

/-- One of some names: as a string, or as an object of one member with that name and null. -/
def toName {α : Type} (names : List (String × α)) : Json → Except Problem α
  | string t => do
    let name ← toText (string t)
    find name
  | object [] .closed => .error .malformed
  | object [] (.cut _ b) => .error b.read
  | object ((key, v) :: others) ending => do
    let name ← toText (string key)
    let a ← find name
    match v with
    | null => .ok ()
    | v => .error v.mismatch
    match others, ending with
    | [], .closed => .ok a
    | [], .cut false b => .error b.read
    | _, _ => .error .malformed
  | broken b => .error b.read
  | _ => .error .malformed
where
  /-- The meaning of a name. -/
  find (name : String) : Except Problem α :=
    match names.find? (·.1 = name) with
    | some (_, a) => .ok a
    | none => .error .unfit

/-- A field of a record: its name and how its value is put into the record. -/
structure Field (σ : Type) where
  name : String
  read : Json → σ → Except Problem σ

/-- A field from a reading of its value. -/
def Field.of {σ α : Type} (name : String) (read : Json → Except Problem α) (put : α → σ → σ) :
    Field σ :=
  ⟨name, fun j s => (read j).map fun a => put a s⟩

variable {σ : Type}

/-- Fields in the order of an array; those behind its last item keep their defaults. -/
def readItems : List (Field σ) → List Json → Ending → σ → Except Problem σ
  | [], [], .closed, s => .ok s
  | [], [], .cut false b, _ => .error b.read
  | [], _, _, _ => .error .malformed
  | _ :: _, [], .closed, s => .ok s
  | _ :: _, [], .cut _ b, _ => .error b.read
  | f :: fs, j :: js, ending, s => do
    let s ← f.read j s
    readItems fs js ending s

/-- Fields by the names of members; `seen` are the names already read. -/
def readMembers (fields : List (Field σ)) (seen : List String) :
    List (Token × Json) → Ending → σ → Except Problem σ
  | [], .closed, s => .ok s
  | [], .cut _ b, _ => .error b.read
  | (key, v) :: rest, ending, s => do
    let name ← toText (string key)
    match fields.find? (·.name = name) with
    | none =>
      pass v
      readMembers fields seen rest ending s
    | some f =>
      if name ∈ seen then .error .unfit
      else
        let s ← f.read v s
        readMembers fields (name :: seen) rest ending s

/-- A record, starting from `default`. -/
def toRecord (fields : List (Field σ)) (default : σ) : Json → Except Problem σ
  | array items ending => readItems fields items ending default
  | object members ending => readMembers fields [] members ending default
  | j => .error j.mismatch

/-- Read a whole document. -/
def Document.read {α : Type} (read : Json → Except Problem α) (d : Document) :
    Except Problem α := do
  let a ← read d.root
  if d.trailing then .error .malformed else .ok a

/-- Read a whole text. -/
def decode {α : Type} (read : Json → Except Problem α) (text : String) : Except Problem α :=
  (scan text).read read

end HostServices.Json
