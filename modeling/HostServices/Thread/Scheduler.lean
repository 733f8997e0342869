import HostServices.Thread.Priority

/-!
# A scheduler with one thread

The niceness of the only thread of a host. Thread numbers are unsigned 32-bit words; zero stands
for the calling thread.
-/

namespace HostServices

/-- The number of the thread, and its niceness. -/
structure Scheduler where
  own : Int
  niceness : Int := 0

namespace Scheduler

/-- What is wrong with a thread number. -/
def problem (s : Scheduler) (thread : Int) : Option HostError :=
  if thread < 0 ∨ 0x100000000 ≤ thread then some (.code .invalid)
  else if thread = 0 ∨ thread = s.own then none
  else some (.code .noProcess)

/-- A niceness within the range of the host. -/
def clamp (n : Int) : Int :=
  if n < -20 then -20 else if 19 < n then 19 else n

instance : ThreadHost Scheduler where
  setPriority thread priority := do
    match (← get).problem thread with
    | some e => return .error e
    | none =>
      modify fun s => { s with niceness := clamp priority }
      return .ok ()
  getPriority thread := do
    let s ← get
    return (s.problem thread).elim (.ok s.niceness) .error
  current s := s.own

end Scheduler

end HostServices
