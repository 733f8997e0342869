import HostServices.Json.Decoder

/-!
# Dispatcher settings
-/

namespace HostServices

/-- The settings of the dispatcher. -/
structure SignalConfig where
  /-- Start no dispatcher thread. -/
  reduceSignalUsage : Bool := false
  /-- The quit signal is never an attach request. -/
  disableAttachMechanism : Bool := false
  /-- The dump has a class histogram. -/
  printClassHistogram : Bool := false
  /-- The thread dump shows who owns which lock. -/
  printConcurrentLocks : Bool := false
  deriving DecidableEq, Repr

namespace SignalConfig

/-- The settings with their names. -/
def members (c : SignalConfig) : List (String × Bool) :=
  [("reduce_signal_usage", c.reduceSignalUsage),
   ("disable_attach_mechanism", c.disableAttachMechanism),
   ("print_class_histogram", c.printClassHistogram),
   ("print_concurrent_locks", c.printConcurrentLocks)]

/-- The document of the settings. -/
def toJson (c : SignalConfig) : Json :=
  .ofMembers (c.members.map fun (name, value) => (name, .bool value))

/-- The fields of the settings. -/
def fields : List (Json.Field SignalConfig) := [
  .of "reduce_signal_usage" Json.toBool fun v c => { c with reduceSignalUsage := v },
  .of "disable_attach_mechanism" Json.toBool fun v c => { c with disableAttachMechanism := v },
  .of "print_class_histogram" Json.toBool fun v c => { c with printClassHistogram := v },
  .of "print_concurrent_locks" Json.toBool fun v c => { c with printConcurrentLocks := v }]

/-- The settings that a document describes; a missing one is off. -/
def ofJson (j : Json) : Except Json.Problem SignalConfig :=
  j.toRecord fields {}

/-- The settings for a reader of logs. -/
def inspect (c : SignalConfig) : String :=
  let settings := ", ".intercalate (c.members.map fun (name, value) => s!"{name}: {value}")
  s!"SignalConfig \x7b {settings} \x7d"

end SignalConfig

end HostServices
