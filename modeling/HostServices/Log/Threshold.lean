import HostServices.Event

/-!
# Thresholds

How much an event must matter to pass. A threshold has a name and a number; the higher the number,
the more events pass.
-/

namespace HostServices.Log

/-- How much an event must matter to pass. -/
inductive Threshold
  | off
  | least (severity : Severity)
  deriving DecidableEq, Repr

namespace Threshold

/-- An event of a severity passes. -/
def passes : Threshold → Severity → Bool
  | off, _ => false
  | least a, s => s.atLeast a

/-- The thresholds by number. -/
def numbered : List Threshold :=
  [off, least .error, least .warn, least .info, least .debug, least .trace]

/-- The threshold with a name, in either case. -/
def ofName? (cs : List Char) : Option Threshold :=
  let name := String.ofList (cs.map Char.toLower)
  if name = "off" then some off else (Severity.all.find? fun s => s.name = name).map least

/-- The threshold with a number. -/
def ofNumber? (cs : List Char) : Option Threshold :=
  let ds := match cs with
    | '+' :: rest => rest
    | _ => cs
  if ds ≠ [] ∧ ds.all Char.isDigit then
    numbered[ds.foldl (fun n c => 10 * n + (c.toNat - '0'.toNat)) 0]?
  else none

/-- The threshold that a text stands for. -/
def parse? (cs : List Char) : Option Threshold :=
  (ofNumber? cs).or (ofName? cs)

/-- The threshold behind `=`; without a text, everything passes. -/
def suffix? (cs : List Char) : Option Threshold :=
  if cs = [] then some (.least .trace) else parse? cs

end Threshold

end HostServices.Log
