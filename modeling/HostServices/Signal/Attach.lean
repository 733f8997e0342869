import HostServices.Signal.Handler

/-!
# Attach negotiation

A tool attaches by sending the quit signal. The first negotiation to move the cell away from
`notInitialized` asks whether there is a request; a negotiation that finds another one at work
leaves its signal to that one.
-/

namespace HostServices

/-- The life of the attach listener. -/
inductive AttachState
  | notInitialized
  | initializing
  | initialized
  deriving DecidableEq, Repr

namespace AttachState

/-- All states. -/
def all : List AttachState :=
  [notInitialized, initializing, initialized]

/-- The name of a state. -/
def name : AttachState → String
  | notInitialized => "not_initialized"
  | initializing => "initializing"
  | initialized => "initialized"

/-- The state with a name. -/
def ofName? (s : String) : Option AttachState :=
  all.find? fun state => state.name = s

/-- Move a cell to `new` if it is `expected`. The first part of the answer is what the cell held. -/
def transit (cell new expected : AttachState) : AttachState × AttachState :=
  (cell, if cell = expected then new else cell)

end AttachState

/-- The attach listener as the dispatcher sees it. -/
structure AttachMechanism (σ : Type) where
  state : σ → AttachState
  setState : AttachState → σ → σ
  /-- Look for a request and start the listener if there is one. -/
  isInitTrigger : StateM σ (Ending Bool)
  /-- Start the listener again if its endpoint is gone. -/
  checkSocketFile : StateM σ (Ending Bool)

namespace AttachMechanism

variable {σ : Type}

/-- Move the cell of the listener. -/
def transit (a : AttachMechanism σ) (new expected : AttachState) : StateM σ AttachState := fun s =>
  let (found, after) := (a.state s).transit new expected
  (found, a.setState after s)

/-- One negotiation: was the quit signal meant for the listener? -/
def consumes (a : AttachMechanism σ) : StateM σ (Ending Bool) := do
  match ← a.transit .initializing .notInitialized with
  | .initializing => return .returned true
  | .notInitialized =>
    match ← a.isInitTrigger with
    | .returned false =>
      modify (a.setState .notInitialized)
      return .returned false
    | ending => return ending
  | .initialized => a.checkSocketFile

end AttachMechanism

end HostServices
