import HostServices.Log.Line

/-!
# The logger of a process

A process installs one logger and keeps it. The logger writes the events that its filter lets
pass; with a service name, everything on the main thread happens inside a span that carries it.
-/

namespace HostServices.Log

/-- An installed logger. -/
structure Logger where
  config : Config
  filter : Filter

/-- Why no logger was installed. -/
inductive Problem
  /-- The directives are no filter. -/
  | filter (directives : String)
  /-- There is one already. -/
  | installed
  deriving DecidableEq, Repr

/-- The text of a problem. -/
def Problem.message : Problem → String
  | .filter directives => s!"Invalid filter '{directives}'"
  | .installed => "Logger initialization failed"

/-- The filter of the settings. -/
def Config.filter (c : Config) : Except Problem Filter :=
  (Filter.parse? c.level).elim (.error (.filter c.level)) .ok

/-- Install a logger with the given settings. -/
def initialise (c : Config) : StateM (Option Logger) (Except Problem Unit) := do
  match c.filter with
  | .error e => return .error e
  | .ok filter =>
    if (← get).isSome then return .error .installed
    set (some (⟨c, filter⟩ : Logger))
    return .ok ()

/-- Install a logger as the variables ask, or for development. -/
def initialiseAuto (setting? : String → Option String) :
    StateM (Option Logger) (Except Problem Unit) :=
  if (Config.directives? setting?).isSome then initialise (.ofEnvironment setting?)
  else initialise .development

/-- Install a logger for tests, unless there is one. -/
def initialiseTest : StateM (Option Logger) (Except Problem Unit) := do
  if (← get).isSome then return .ok ()
  initialise .test

namespace Logger

/-- The span around everything on the main thread. -/
def span? (l : Logger) : Option Span :=
  l.config.service.bind fun service =>
    let span : Span := ⟨"stratum", "stratum_log::builder", .info, "service", service⟩
    if l.filter.opens span then some span else none

/-- The span that an event lies in. -/
def spanOf (l : Logger) (e : Event) : Option Span :=
  if e.thread = .main then l.span? else none

/-- The text written for some events; `width` is that of the thread names so far. -/
def write (l : Logger) (width : Nat) : List Event → String
  | [] => ""
  | e :: es =>
    if l.filter.passesWithin (l.spanOf e) e then
      let width := Nat.max width e.thread.name.length
      render l.config width (l.spanOf e) e ++ l.write width es
    else l.write width es

/-- The text written for all events of a process. -/
def output (l : Logger) (events : List Event) : String :=
  l.write 0 events

end Logger

end HostServices.Log
