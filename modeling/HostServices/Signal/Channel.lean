import HostServices.Op

/-!
# Signal channels

Signals are only recorded where they arrive and taken where they are handled. A channel lies in a
state `σ`, together with everything the handlers of its signals may change.
-/

namespace HostServices

/-- Ends the dispatcher; no host signal has this number. -/
def Signal.exit : Int := 65

/-- Asks for the diagnostic dump. -/
def Signal.quit : Int := 3

/-- A queue of signals within a state. -/
structure SignalChannel (σ : Type) where
  /-- The next signal to handle, taken from the queue. -/
  take : StateM σ (Option Int)
  /-- Put a signal into the queue. -/
  notify (sig : Int) : Op σ Unit

end HostServices
