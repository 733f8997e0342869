import HostServices.ServiceError
import HostServices.Signal.Attach
import HostServices.Signal.Config
import HostServices.Signal.Name

/-!
# The signal dispatcher

A thread that takes one signal after another from a channel. The quit signal runs the diagnostic
dump, unless it turns out to be an attach request; every other signal goes to one handler. A step
of the dump or a handler that fails or panics is reported, and the next one still runs. The exit
signal ends the thread.
-/

namespace HostServices

/-- A dispatcher and what it calls. -/
structure SignalDispatcher (σ : Type) where
  channel : SignalChannel σ
  hooks : DiagnosticHooks σ
  /-- The handler of all signals but the quit signal. -/
  upcall (sig : Int) : StateM σ Handled
  attach : Option (AttachMechanism σ) := none
  /-- Raise the priority of the thread when it starts. -/
  raisePriority : Option (Op σ (Except ServiceError Unit)) := none
  config : SignalConfig := {}

/-- Why a thread is not handling signals. -/
inductive DispatcherRest
  /-- The channel is empty. -/
  | waiting
  /-- The exit signal was taken. -/
  | terminated
  /-- A call that nothing guards panicked, and took the thread with it. -/
  | panicked (text : Option String)
  /-- The thread has had as many turns as it was given. -/
  | busy
  deriving DecidableEq, Repr

namespace SignalDispatcher

variable {σ : Type}

/-- Report an event of the dispatcher. -/
def report (severity : Severity) (message : String) (fields : List (String × FieldValue) := []) :
    Op σ Unit :=
  Op.report severity .signal message fields

/-- Run a step of the dump. -/
def step (name : String) (handler : StateM σ Handled) : Op σ Unit := do
  match (← Op.ofState handler).guarded with
  | .ok () => return ()
  | .error e =>
    report .warn "diagnostic step failed" [("step", .string name), ("error", .shown e)]

/-- The last step of the dump. -/
def dataDump (hooks : DiagnosticHooks σ) : StateM σ Handled := do
  match ← hooks.shouldPostDataDump with
  | .returned true => hooks.postDataDump
  | .returned false => return .done
  | .panicked text => return .panicked text

/-- The diagnostic dump. -/
def printDiagnostics (d : SignalDispatcher σ) : Op σ Unit := do
  step "print_threads" (d.hooks.printThreads d.config.printConcurrentLocks)
  step "find_deadlocks" d.hooks.findDeadlocks
  step "print_heap" d.hooks.printHeap
  if d.config.printClassHistogram then
    step "print_class_histogram" d.hooks.printClassHistogram
  step "post_data_dump" (dataDump d.hooks)

/-- The quit signal is for the attach listener. -/
def attaches (d : SignalDispatcher σ) : StateM σ (Ending Bool) :=
  match d.attach with
  | some a => if d.config.disableAttachMechanism then pure (.returned false) else a.consumes
  | none => pure (.returned false)

/-- The text for a handler that failed. -/
def failureText (e : String) (sig : Int) : String :=
  s!"Exception {e} occurred dispatching signal {Signal.name sig} to handler; " ++
    "the VM may need to be forcibly terminated"

/-- Handle one signal. -/
def dispatch (d : SignalDispatcher σ) (sig : Int) : Op σ (Ending Unit) := do
  if sig = Signal.quit then
    match ← Op.ofState d.attaches with
    | .returned true => return .returned ()
    | .returned false =>
      d.printDiagnostics
      return .returned ()
    | .panicked text => return .panicked text
  else
    match (← Op.ofState (d.upcall sig)).guarded with
    | .ok () => return .returned ()
    | .error e =>
      report .warn (failureText e sig) [("sig", .number sig)]
      return .returned ()

/-- One turn of the thread: take a signal and handle it. No answer means that the thread goes on. -/
def turn (d : SignalDispatcher σ) : Op σ (Option DispatcherRest) := do
  match ← Op.ofState d.channel.take with
  | none => return some .waiting
  | some sig =>
    if sig = Signal.exit then
      report .debug "signal dispatcher terminated"
      return some .terminated
    match ← d.dispatch sig with
    | .returned () => return none
    | .panicked text => return some (.panicked text)

/-- Take turns until the thread rests, at most as many as given. -/
def serve (d : SignalDispatcher σ) : Nat → Op σ DispatcherRest
  | 0 => return .busy
  | turns + 1 => do
    match ← d.turn with
    | some rest => return rest
    | none => d.serve turns

/-- Start the thread and let it take turns. -/
def run (d : SignalDispatcher σ) (turns : Nat) : Op σ DispatcherRest := do
  if let some raise := d.raisePriority then
    if let .error e ← raise then
      report .debug "dispatcher keeps default priority" [("error", .shown e.message)]
  report .debug "signal dispatcher started"
  d.serve turns

/-- Start the thread, unless the settings ask for none. -/
def start (d : SignalDispatcher σ) (turns : Nat) : Op σ (Option DispatcherRest) := do
  if d.config.reduceSignalUsage then
    report .debug "reduced signal usage, no dispatcher thread"
    return none
  some <$> Op.onThread .signalDispatcher (d.run turns)

/-- Send the exit signal to a thread at rest, and see how it ends. -/
def terminate (d : SignalDispatcher σ) (rest : DispatcherRest) (turns : Nat) :
    Op σ (Except ServiceError Unit) := do
  d.channel.notify Signal.exit
  match rest with
  | .waiting | .busy => return ending (← Op.onThread .signalDispatcher (d.serve turns))
  | _ => return ending rest
where
  ending : DispatcherRest → Except ServiceError Unit
    | .panicked _ => .error (.signalThread "dispatcher thread panicked")
    | _ => .ok ()

/-- Give up the handle of a thread, which ends it as well. -/
def drop (d : SignalDispatcher σ) (rest : DispatcherRest) (turns : Nat) : Op σ Unit := do
  if let .error e ← d.terminate rest turns then
    report .error "signal dispatcher shutdown failed" [("error", .shown e.message)]

/-- The dispatcher for a reader of logs. -/
def inspect (d : SignalDispatcher σ) : String :=
  s!"SignalDispatcher \x7b config: {d.config.inspect}, attach: {d.attach.isSome}, .. \x7d"

end SignalDispatcher

/-- Where a thread is in its loop. -/
def DispatcherRest.state : DispatcherRest → String
  | .waiting => "Waiting"
  | .terminated => "Terminated"
  | .panicked _ | .busy => "Dispatching"

/-- The handle of a thread for a reader of logs. -/
def DispatcherRest.inspect (rest : DispatcherRest) : String :=
  s!"SignalThread \x7b state: {rest.state}, running: true \x7d"

end HostServices
