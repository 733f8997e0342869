import HostServices.Log.FieldTest
import HostServices.Log.Span
import HostServices.Log.Threshold
import HostServices.Text.Bytes

/-!
# Filter directives

A directive is a threshold for all events, or it says what it is for, with a threshold behind `=` or
none for everything:

* `os::vm=trace` is for the targets that start with the given one;
* `[stratum]=debug` is for the events inside a span;
* `[{size}]=info` is for the events with a field, and for those inside a span with it;
* `[{service=a.*}]` is for the events inside a span whose field holds such a text.

Of these parts a target comes first, then a span name, then a field.
-/

namespace HostServices.Log

/-- A directive. -/
structure Directive where
  threshold : Threshold := .least .trace
  target : Option (List Char) := none
  span : Option (List Char) := none
  field : Option FieldTest := none
  deriving DecidableEq, Repr

namespace Directive

/-- What may stand behind the brackets: a threshold, or nothing. `offset` is that of the text
behind the brackets. -/
def ending? (text : List Char) (d : Directive) (offset : Nat) : List Char → Option Directive
  | [] => some d
  | '=' :: _ => do
    let threshold ← Threshold.suffix? (← Text.dropBytes? text (offset + 1))
    some { d with threshold }
  | _ => none

/-- The rest of a directive from inside its brackets on. -/
def brackets? (text : List Char) (target : Option (List Char)) (offset : Nat) (cs : List Char) :
    Option Directive := do
  let name := cs.takeWhile fun c => c != ']' && c != '\x7b'
  let stop := offset + Text.byteCount name
  let span ← Text.cutBytes? text offset stop
  match cs.drop name.length with
  | ']' :: rest => ending? text { target, span := some span } (stop + 1) rest
  | '\x7b' :: cs =>
    let field := cs.takeWhile (· != '\x7d')
    let span := if name = [] then none else some span
    match field, cs.drop field.length with
    | [], _ => none
    | _, '\x7d' :: ']' :: rest =>
      let fieldStop := stop + 1 + Text.byteCount field
      let test ← FieldTest.parse? (← Text.cutBytes? text (stop + 1) fieldStop)
      ending? text { target, span, field := some test } (fieldStop + 2) rest
    | _, _ => none
  | _ => none

/-- What a directive without brackets may start with. -/
def startsWell (c : Char) : Bool :=
  Text.isAlphanumeric c || c == '-' || c == ':' || c == '_'

/-- A directive without brackets and `=`. -/
def ofWord (cs : List Char) : Directive :=
  match Threshold.parse? cs with
  | some threshold => { threshold }
  | none => { target := some cs }

/-- Read a directive. The places of its parts are found without the blanks in front, but counted
from the start of the text, so blanks in front shift the parts. -/
def parse? (text : List Char) : Option Directive :=
  match Text.trim text with
  | [] => none
  | '[' :: rest => brackets? text none 1 rest
  | c :: cs =>
    if !startsWell c then none
    else do
      let head := (c :: cs).takeWhile fun c => c != '=' && c != '['
      let stop := Text.byteCount head
      match (c :: cs).drop head.length with
      | '=' :: _ =>
        let target ← Text.takeBytes? text stop
        let threshold ← Threshold.suffix? (← Text.dropBytes? text (stop + 1))
        some { threshold, target := some target }
      | '[' :: rest => brackets? text (some (← Text.takeBytes? text stop)) (stop + 1) rest
      | _ => some (ofWord text)

/-- The directive decides about events by themselves: it asks neither for a span nor for a value. -/
def isStatic (d : Directive) : Bool :=
  d.span.isNone && d.field.all (·.value.isNone)

/-- The directive decides about what happens inside spans. -/
def isDynamic (d : Directive) : Bool :=
  d.span.isSome || d.field.isSome

/-- The directive asks for the value of a field. -/
def asksValue (d : Directive) : Bool :=
  d.field.any (·.value.isSome)

/-- Two directives are for the same. -/
def sameConcern (d e : Directive) : Bool :=
  d.target = e.target && d.span = e.span && d.field = e.field

/-- The directive is for a target. -/
def concernsTarget (d : Directive) (target : List Char) : Bool :=
  d.target.all fun t => t.isPrefixOf target

/-- The directive is for an event. -/
def concerns (d : Directive) (e : Event) : Bool :=
  d.concernsTarget e.source.target.toList &&
    d.field.all fun f => f.name = "message".toList || e.fields.any (·.1.toList = f.name)

/-- The directive is for a span, whatever its field holds. -/
def concernsSpan (d : Directive) (s : Span) : Bool :=
  d.concernsTarget s.target.toList && d.span.all (· = s.name.toList) &&
    d.field.all (·.name = s.field.toList)

/-- How exactly a directive says what it is for: by the length of the target, then by a field. Two
fields are in the order of their names. -/
def compareWeight (d e : Directive) : Ordering :=
  let name (d : Directive) : String := String.ofList (d.field.elim [] (·.name))
  let weight (d : Directive) : Nat := d.target.elim 0 fun t => t.length + 1
  (compare (weight d) (weight e)).then <|
    (compare d.field.toList.length e.field.toList.length).then (compare (name d) (name e))

end Directive

end HostServices.Log
