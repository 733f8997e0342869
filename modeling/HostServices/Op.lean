import HostServices.Checked
import HostServices.Event

/-!
# Operations

An operation on a state `σ` ends with a result or a `Stop`, and either way leaves a state and the
events it reported. State and events from before a stop are kept, so a failed check cannot undo
what was already done.
-/

namespace HostServices

/-- How an operation ended, and what it left behind. -/
structure Outcome (σ α : Type) where
  result : Except Stop α
  state : σ
  events : List Event

/-- An operation on a state `σ` with a result in `α`. -/
def Op (σ α : Type) : Type :=
  σ → Outcome σ α

namespace Op

variable {σ τ α β : Type}

/-- The outcome of `op` from the state `s`. -/
def run (op : Op σ α) (s : σ) : Outcome σ α :=
  op s

protected def pure (a : α) : Op σ α :=
  fun s => ⟨.ok a, s, []⟩

protected def bind (op : Op σ α) (next : α → Op σ β) : Op σ β := fun s =>
  match op s with
  | ⟨.ok a, s', es⟩ =>
    let out := next a s'
    ⟨out.result, out.state, es ++ out.events⟩
  | ⟨.error e, s', es⟩ => ⟨.error e, s', es⟩

instance : Monad (Op σ) where
  pure := Op.pure
  bind := Op.bind

instance : MonadStateOf σ (Op σ) where
  get := fun s => ⟨.ok s, s, []⟩
  set s := fun _ => ⟨.ok (), s, []⟩
  modifyGet f := fun s => let (a, s') := f s; ⟨.ok a, s', []⟩

/-- Report one event. -/
def report (severity : Severity) (source : Component) (message : String)
    (fields : List (String × FieldValue) := []) : Op σ Unit :=
  fun s => ⟨.ok (), s, [{ severity, source, message, fields }]⟩

/-- Run an operation on a thread: its events are that thread's. -/
def onThread (thread : ReportingThread) (op : Op σ α) : Op σ α := fun s =>
  let out := op s
  { out with events := out.events.map fun e => { e with thread } }

/-- End without a result. -/
def stop (why : Stop) : Op σ α :=
  fun s => ⟨.error why, s, []⟩

/-- A change of the state that reports nothing and cannot stop. -/
def ofState (step : StateM σ α) : Op σ α := fun s =>
  let (a, s') := step s
  ⟨.ok a, s', []⟩

/-- A checked value: its fault ends the operation. -/
def check (v : Except Fault α) : Op σ α :=
  fun s => ⟨v.mapError .fault, s, []⟩

/-- A sum that must be a word. -/
def add (a b : UInt64) : Op σ UInt64 :=
  check (Checked.add a b)

/-- Run an operation on a part of the state. -/
def zoom (part : σ → τ) (put : σ → τ → σ) (op : Op τ α) : Op σ α := fun s =>
  let out := op (part s)
  ⟨out.result, put s out.state, out.events⟩

end Op

end HostServices
