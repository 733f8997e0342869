import HostServices.Event

/-!
# Spans

A span of time within which events are reported. It has a name, a target and one field, which holds
a text.
-/

namespace HostServices.Log

/-- A span of time within which events are reported. -/
structure Span where
  name : String
  target : String
  severity : Severity
  field : String
  value : String
  deriving DecidableEq, Repr

end HostServices.Log
