import HostServices.Event

/-!
# Log settings

Which events are written, in which format and where, the presets, and the reading of environment
variables.
-/

namespace HostServices.Log

/-- The shape of a written event. -/
inductive Format
  /-- A few indented lines. -/
  | pretty
  /-- One line of text. -/
  | compact
  /-- One line of JSON. -/
  | json
  deriving DecidableEq, Repr

/-- Where events are written. -/
inductive Writer
  | stderr
  | stdout
  /-- The output that a test harness collects. -/
  | test
  deriving DecidableEq, Repr

/-- The parts of an event that are shown. -/
structure Display where
  time : Bool := true
  /-- The file and line that reported the event. -/
  source : Bool := false
  target : Bool := true
  threadIds : Bool := false
  threadNames : Bool := true
  colors : Bool := true
  /-- JSON lists all spans around an event. -/
  spanList : Bool := false
  /-- JSON puts the fields of an event beside its other members. -/
  flatten : Bool := false
  deriving DecidableEq, Repr

/-- The log settings. -/
structure Config where
  /-- The directives of the filter. -/
  level : String := "info"
  format : Format := .compact
  writer : Writer := .stderr
  display : Display := {}
  /-- The name recorded on the span around everything. -/
  service : Option String := none
  deriving DecidableEq, Repr

/-- The names of the formats. -/
def Format.names : List (String × Format) :=
  [("pretty", .pretty), ("compact", .compact), ("json", .json)]

/-- The format that a variable asks for, in either case; an unknown name stands for the compact
one. No letter outside ASCII has a lower case among the letters of these names. -/
def Format.ofText (text : String) : Format :=
  (Format.names.lookup (String.ofList (text.toList.map Char.toLower))).getD .compact

/-- The names of the writers. -/
def Writer.names : List (String × Writer) :=
  [("stderr", .stderr), ("stdout", .stdout), ("test", .test)]

namespace Config

/-- For people, with everything from debugging events on. -/
def development : Config where
  level := "debug"
  format := .pretty
  display := { source := true }

/-- For machines. -/
def production : Config where
  format := .json
  display := { colors := false, flatten := true }

/-- For tests: everything, in a form that does not change from run to run. -/
def test : Config where
  level := "trace"
  writer := .test
  display := { colors := false, time := false }

/-- The presets, by name. -/
def presets : List (String × Config) :=
  [("development", development), ("production", production), ("test", test), ("default", {})]

/-- The words that turn a setting on, in either case; every other text turns it off. -/
def isOn (text : String) : Bool :=
  String.ofList (text.toList.map Char.toLower) ∈ ["1", "true", "yes", "on"]

/-- The shown parts that the variables ask for. -/
def displayOf (setting? : String → Option String) : Display :=
  let flag (name : String) (default : Bool) : Bool := (setting? name).elim default isOn
  { time := flag "STRATUM_LOG_TIME" true
    source := flag "STRATUM_LOG_SOURCE" false
    threadIds := flag "STRATUM_LOG_THREAD_IDS" false
    colors := (setting? "NO_COLOR").isNone && flag "STRATUM_LOG_COLORS" true }

/-- The directives that the variables ask for. -/
def directives? (setting? : String → Option String) : Option String :=
  (setting? "STRATUM_LOG").or (setting? "RUST_LOG")

/-- The settings that the variables ask for. -/
def ofEnvironment (setting? : String → Option String) : Config where
  level := (directives? setting?).getD "info"
  format := (setting? "STRATUM_LOG_FORMAT").elim .compact Format.ofText
  display := displayOf setting?
  service := setting? "STRATUM_SERVICE"

end Config

end HostServices.Log
