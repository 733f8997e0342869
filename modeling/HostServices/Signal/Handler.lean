import HostServices.Signal.Channel

/-!
# Handlers

What the dispatcher calls out to. A call may change anything in the state `σ`, the channel
included, and it returns or panics.
-/

namespace HostServices

/-- How a call ended: it returned, or it panicked with a payload that may be a text. -/
inductive Ending (α : Type)
  | returned (value : α)
  | panicked (text : Option String)
  deriving DecidableEq, Repr

/-- How a call ended that may also fail. -/
abbrev Handled : Type :=
  Ending (Except String Unit)

namespace Handled

/-- There was nothing to do. -/
def done : Handled :=
  .returned (.ok ())

/-- A panic as a failure. -/
def guarded : Handled → Except String Unit
  | .returned r => r
  | .panicked text => .error ("panicked: " ++ text.getD "unknown panic")

end Handled

/-- The parts of the diagnostic dump. The last three are optional. -/
structure DiagnosticHooks (σ : Type) where
  /-- Dump the stack of every thread. -/
  printThreads (withLocks : Bool) : StateM σ Handled
  findDeadlocks : StateM σ Handled
  printHeap : StateM σ Handled
  printClassHistogram : StateM σ Handled := pure .done
  /-- Has a tool asked for a data dump? -/
  shouldPostDataDump : StateM σ (Ending Bool) := pure (.returned false)
  postDataDump : StateM σ Handled := pure .done

end HostServices
