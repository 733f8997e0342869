import HostServices.Category

/-!
# Tracking levels
-/

namespace HostServices

/-- How much is recorded about each block: nothing, counters for each category, or counters for
each call site as well. -/
inductive TrackingLevel
  | off
  | summary
  | detail
  deriving DecidableEq, Repr

namespace TrackingLevel

/-- Headers and counters are in use. -/
def enabled : TrackingLevel → Bool
  | off => false
  | summary | detail => true

/-- The name in configuration text. -/
def name : TrackingLevel → String
  | off => "off"
  | summary => "summary"
  | detail => "detail"

/-- Read a level; nothing at all and `none` mean `off`. An unknown name is given back as it was
compared, in lower case and without blanks around it. -/
def parse (text : List Char) : Except (List Char) TrackingLevel :=
  let name := Category.normalize text
  if name ∈ ["off".toList, "none".toList, []] then .ok off
  else if name = "summary".toList then .ok summary
  else if name = "detail".toList then .ok detail
  else .error name

/-- The text for an unknown level. -/
def unknownMessage (name : List Char) : String :=
  s!"unknown tracking level \"{String.ofList name}\" (expected off, summary or detail)"

end TrackingLevel

end HostServices
