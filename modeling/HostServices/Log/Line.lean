import HostServices.Json.Printer
import HostServices.Log.Config
import HostServices.Log.Filter
import HostServices.Text.Align
import HostServices.Text.Quoted

/-!
# Written events

The text of an event in each format, without time and colours. An event shows the span it was
reported in, if there is one.
-/

namespace HostServices

/-- The number of a thread. -/
def ReportingThread.number : ReportingThread → Nat
  | .main => 1
  | .signalDispatcher => 2

namespace Log

/-- A field value in text. -/
def valueText : FieldValue → String
  | .number n => toString n
  | .string s => Text.quoted s
  | .shown s => s

/-- The message of an event and its fields: `infix` stands between them, and `binder` behind the
name of a field. -/
def eventText (between binder : String) (e : Event) : String :=
  between.intercalate
    (Text.tamed e.message :: e.fields.map fun (k, v) => k ++ binder ++ valueText v)

/-- The severity in a column. -/
def severityColumn (e : Event) : String :=
  Text.alignRight 5 e.severity.label ++ " "

/-- The text `s`, if it is shown. -/
def shownIf (shown : Bool) (s : String) : String :=
  if shown then s else ""

/-- The field of a span: `binder` stands behind its name. -/
def spanText (binder : String) (s : Span) : String :=
  s.field ++ binder ++ Text.quoted s.value

/-- An event on one line. Thread names share a column of the given width. -/
def compactLine (d : Display) (width : Nat) (span : Option Span) (e : Event) : String :=
  severityColumn e ++
    shownIf d.threadNames (Text.alignRight width e.thread.name ++ " ") ++
    shownIf d.threadIds s!"ThreadId({Text.zeroPadded 2 e.thread.number}) " ++
    span.elim "" (fun s => s.name ++ ": ") ++
    shownIf d.target (e.source.target ++ ": ") ++
    eventText " " "=" e ++
    span.elim "" (fun s => " " ++ spanText "=" s) ++ "\n"

/-- The thread of an event. -/
def threadText (d : Display) (e : Event) : String :=
  " ".intercalate
    ((if d.threadNames then [e.thread.name] else []) ++
      if d.threadIds then [s!"ThreadId({e.thread.number})"] else [])

/-- An event on lines of its own. -/
def prettyLines (d : Display) (span : Option Span) (e : Event) : String :=
  "  " ++ severityColumn e ++ shownIf d.target (e.source.target ++ ":") ++ " " ++
    eventText ", " ": " e ++ "\n" ++
    shownIf (d.threadNames || d.threadIds) ("    on " ++ threadText d e ++ "\n") ++
    span.elim "" (fun s =>
      "    in " ++ shownIf d.target (s.target ++ "::") ++ s.name ++ " with " ++
        spanText ": " s ++ "\n") ++
    "\n"

/-- A field value in JSON. -/
def valueJson : FieldValue → Json
  | .number n => .number ⟨decide (n < 0), n.natAbs, 0, true⟩
  | .string s | .shown s => .ofString s

/-- A span in JSON. -/
def spanJson (s : Span) : Json :=
  .ofMembers [(s.field, .ofString s.value), ("name", .ofString s.name)]

/-- The members that a condition asks for. -/
def membersIf (shown : Bool) (members : List (String × Json)) : List (String × Json) :=
  if shown then members else []

/-- An event as a JSON object. -/
def jsonObject (d : Display) (span : Option Span) (e : Event) : Json :=
  let fields := ("message", .ofString e.message) :: e.fields.map fun (k, v) => (k, valueJson v)
  let spans := span.toList.map spanJson
  .ofMembers
    (("level", .ofString e.severity.label) ::
      ((if d.flatten then fields else [("fields", .ofMembers fields)]) ++
        membersIf d.target [("target", .ofString e.source.target)] ++
        spans.map (fun s => ("span", s)) ++
        membersIf (d.spanList && span.isSome) [("spans", .ofList spans)] ++
        membersIf d.threadNames [("threadName", .ofString e.thread.name)] ++
        membersIf d.threadIds [("threadId", .ofString s!"ThreadId({e.thread.number})")]))

/-- The text of an event. -/
def render (c : Config) (width : Nat) (span : Option Span) (e : Event) : String :=
  match c.format with
  | .compact => compactLine c.display width span e
  | .pretty => prettyLines c.display span e
  | .json => (jsonObject c.display span e).render ++ "\n"

end Log

end HostServices
