import HostServices.Json.Decoder
import HostServices.Log.Config

/-!
# Log settings as JSON

Every field is written; a field that is not there has its default when read.
-/

namespace HostServices.Log

/-- A value as the name it has in a list of names. -/
def nameJson {α : Type} [DecidableEq α] (names : List (String × α)) (a : α) : Json :=
  .ofOption (fun e => .ofString e.1) (names.find? fun e => e.2 = a)

namespace Display

/-- The document of the shown parts. -/
def toJson (d : Display) : Json :=
  .ofMembers [
    ("time", .bool d.time),
    ("source", .bool d.source),
    ("target", .bool d.target),
    ("thread_ids", .bool d.threadIds),
    ("thread_names", .bool d.threadNames),
    ("colors", .bool d.colors),
    ("span_list", .bool d.spanList),
    ("flatten", .bool d.flatten)]

/-- The fields of the shown parts. -/
def fields : List (Json.Field Display) := [
  .of "time" Json.toBool fun v d => { d with time := v },
  .of "source" Json.toBool fun v d => { d with source := v },
  .of "target" Json.toBool fun v d => { d with target := v },
  .of "thread_ids" Json.toBool fun v d => { d with threadIds := v },
  .of "thread_names" Json.toBool fun v d => { d with threadNames := v },
  .of "colors" Json.toBool fun v d => { d with colors := v },
  .of "span_list" Json.toBool fun v d => { d with spanList := v },
  .of "flatten" Json.toBool fun v d => { d with flatten := v }]

end Display

namespace Config

/-- The document of the settings. -/
def toJson (c : Config) : Json :=
  .ofMembers [
    ("level", .ofString c.level),
    ("format", nameJson Format.names c.format),
    ("writer", nameJson Writer.names c.writer),
    ("display", c.display.toJson),
    ("service", .ofOption .ofString c.service)]

/-- The fields of the settings. -/
def fields : List (Json.Field Config) := [
  .of "level" Json.toText fun v c => { c with level := v },
  .of "format" (Json.toName Format.names) fun v c => { c with format := v },
  .of "writer" (Json.toName Writer.names) fun v c => { c with writer := v },
  .of "display" (Json.toRecord Display.fields {}) fun v c => { c with display := v },
  .of "service" (Json.toOption Json.toText) fun v c => { c with service := v }]

/-- The settings that a document describes. -/
def ofJson (j : Json) : Except Json.Problem Config :=
  j.toRecord fields {}

end Config

/-- The severity that a document names. -/
def severityOfJson : Json → Except Json.Problem Severity :=
  Json.toName (Severity.all.map fun s => (s.name, s))

end HostServices.Log
