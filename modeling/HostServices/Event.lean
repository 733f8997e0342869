/-!
# Events

What an operation reports about itself while it runs.
-/

namespace HostServices

/-- How much an event matters, least first. -/
inductive Severity
  | trace
  | debug
  | info
  | warn
  | error
  deriving DecidableEq, Repr

namespace Severity

/-- All severities. -/
def all : List Severity :=
  [trace, debug, info, warn, error]

/-- The name of a severity in an event. -/
def label : Severity → String
  | trace => "TRACE"
  | debug => "DEBUG"
  | info => "INFO"
  | warn => "WARN"
  | error => "ERROR"

/-- The name of a severity in settings. -/
def name : Severity → String
  | trace => "trace"
  | debug => "debug"
  | info => "info"
  | warn => "warn"
  | error => "error"

/-- The place in the order of severities. -/
def rank : Severity → Nat
  | trace => 0
  | debug => 1
  | info => 2
  | warn => 3
  | error => 4

/-- One severity matters at least as much as another. -/
def atLeast (a b : Severity) : Bool :=
  b.rank ≤ a.rank

end Severity

/-- The components that report events. -/
inductive Component
  | malloc
  | vm
  | pageSize
  | signal
  | thread
  | probe
  deriving DecidableEq, Repr

/-- The target text of a component. -/
def Component.target : Component → String
  | .malloc => "os::malloc"
  | .vm => "os::vm"
  | .pageSize => "os::pagesize"
  | .signal => "os::signal"
  | .thread => "os::thread"
  | .probe => "os::probe"

/-- The value of an event field: a number, a string, or the display text of some other value. -/
inductive FieldValue
  | number (n : Int)
  | string (s : String)
  | shown (s : String)
  deriving DecidableEq, Repr

/-- A field value without quotes. -/
def FieldValue.text : FieldValue → String
  | .number n => toString n
  | .string s => s
  | .shown s => s

/-- The threads that report events. -/
inductive ReportingThread
  | main
  | signalDispatcher
  deriving DecidableEq, Repr

/-- The name of a thread. -/
def ReportingThread.name : ReportingThread → String
  | .main => "main"
  | .signalDispatcher => "Signal Dispatcher"

/-- One report: how much it matters, who made it and on which thread, what it says and the values
that go with it. -/
structure Event where
  severity : Severity
  source : Component
  message : String
  fields : List (String × FieldValue) := []
  thread : ReportingThread := .main
  deriving DecidableEq, Repr

/-- The field value of a word. -/
def FieldValue.word (a : UInt64) : FieldValue :=
  .number a.toNat

end HostServices
