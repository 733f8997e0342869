import HostServices.MemoryHost
import HostServices.Signal.Pending

/-!
# Forwarded signals

A forwarded signal is counted when the host delivers it. The host lets no handler be installed for
the two signals that cannot be caught and the two its thread library keeps for itself.
-/

namespace HostServices

/-- The forwarded signals, and their deliveries. -/
structure Forwarding where
  installed : List Int := []
  pending : PendingSignals := .empty

namespace Forwarding

/-- A signal that the host lets a process handle. -/
def catchable (sig : Int) : Bool :=
  0 < sig && sig < 65 && !(sig ∈ [9, 19, 32, 33])

/-- Forward a signal. -/
def install (sig : Int) : Op Forwarding (HostResult Unit) :=
  if catchable sig then do
    modify fun f => { f with installed := sig :: f.installed }
    Op.report .debug .signal "signal forwarding installed" [("sig", .number sig)]
    return .ok ()
  else return .error (.code .invalid)

/-- The host delivers a signal. -/
def deliver (f : Forwarding) (sig : Int) : Forwarding :=
  if sig ∈ f.installed then { f with pending := f.pending.mark sig } else f

end Forwarding

end HostServices
