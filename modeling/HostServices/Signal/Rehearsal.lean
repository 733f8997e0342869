import HostServices.Recorder
import HostServices.Signal.Dispatcher
import HostServices.Signal.Pending

/-!
# Rehearsing the dispatcher

Everything around a dispatcher, to watch it work: a channel that plays its signals in order or
counts them, handlers that end as they are told, and an attach listener with its answers written
down. Every call is recorded.
-/

namespace HostServices

/-- What an attach listener finds when it looks for a request, and where it leaves its cell. -/
structure TriggerAnswer where
  request : Bool := false
  cell : Option AttachState := none

/-- The surroundings of a dispatcher. -/
structure Rehearsal where
  /-- The signals still to be played. -/
  script : List Int := []
  /-- The signals that are counted. -/
  pending : PendingSignals := .empty
  cell : AttachState := .notInitialized
  /-- The coming answers of the listener to a look for a request. -/
  triggers : List TriggerAnswer := []
  /-- The coming answers of the listener to a look at its endpoint. -/
  sockets : List Bool := []
  host : Recorder := {}
  /-- The calls so far, the latest first. -/
  calls : List String := []

namespace Rehearsal

/-- Write down a call. -/
def note (call : String) : StateM Rehearsal Unit :=
  modify fun r => { r with calls := call :: r.calls }

/-- Write down a call that ends as told. -/
def play (call : String) (ending : Handled) : StateM Rehearsal Handled := do
  note call
  return ending

/-- The signals in the order they were given. -/
def scripted : SignalChannel Rehearsal where
  take := modifyGet fun r => (r.script.head?, { r with script := r.script.tail })
  notify sig := modify fun r => { r with script := r.script ++ [sig] }

/-- The signals by their counters. -/
def counted : SignalChannel Rehearsal where
  take := modifyGet fun r => (r.pending.take.1, { r with pending := r.pending.take.2 })
  notify sig := Op.zoom (·.pending) (fun r p => { r with pending := p }) (PendingSignals.notify sig)

/-- The hooks that every dump has. -/
def leastHooks (ending : String → Handled) : DiagnosticHooks Rehearsal where
  printThreads _ := play "print_threads" (ending "print_threads")
  findDeadlocks := play "find_deadlocks" (ending "find_deadlocks")
  printHeap := play "print_heap" (ending "print_heap")

/-- The hooks that every dump has, and a request for a data dump without a hook that delivers it. -/
def askingHooks (ending : String → Handled) : DiagnosticHooks Rehearsal :=
  { leastHooks ending with
    shouldPostDataDump := do
      note "asked"
      return .returned true }

/-- All hooks. -/
def allHooks (ending : String → Handled) (dataDump : Bool) : DiagnosticHooks Rehearsal where
  printThreads withLocks := do
    note s!"locks={withLocks}"
    play "print_threads" (ending "print_threads")
  findDeadlocks := play "find_deadlocks" (ending "find_deadlocks")
  printHeap := play "print_heap" (ending "print_heap")
  printClassHistogram := play "print_class_histogram" (ending "print_class_histogram")
  shouldPostDataDump := pure (.returned dataDump)
  postDataDump := play "post_data_dump" (ending "post_data_dump")

/-- The handler of the signals that are no quit signal. -/
def upcall (ending : Int → Handled) (sig : Int) : StateM Rehearsal Handled :=
  play s!"upcall {sig}" (ending sig)

/-- The listener. Without an answer left it finds nothing. -/
def listener : AttachMechanism Rehearsal where
  state := cell
  setState c r := { r with cell := c }
  isInitTrigger := do
    note s!"trigger in {(← get).cell.name}"
    modifyGet fun r =>
      let answer := r.triggers.headD {}
      (.returned answer.request,
        { r with triggers := r.triggers.tail, cell := answer.cell.getD r.cell })
  checkSocketFile := do
    note "check_socket"
    modifyGet fun r => (.returned (r.sockets.headD false), { r with sockets := r.sockets.tail })

/-- Raise the priority of the thread on the recording host. -/
def raisePriority : Op Rehearsal (Except ServiceError Unit) :=
  Op.zoom (·.host) (fun r h => { r with host := h }) PriorityMap.niceness.raiseOwn

/-- Send signals, start the dispatcher, and when it rests, end it: by giving up its handle, or with
a request. The answer says how it rested and ended, if it was started. -/
def perform (d : SignalDispatcher Rehearsal) (signals : List Int) (giveUp : Bool) :
    Op Rehearsal (Option (DispatcherRest × Except ServiceError Unit)) := do
  signals.forM d.channel.notify
  let turns := signals.length + 2
  match ← d.start turns with
  | none => return none
  | some rest =>
    if giveUp then
      d.drop rest turns
      return some (rest, .ok ())
    return some (rest, ← d.terminate rest turns)

end Rehearsal

end HostServices
