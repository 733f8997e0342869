import HostServices.Proofs.Op
import HostServices.Proofs.Signal.Pending
import HostServices.Signal.Dispatcher

/-!
# A dispatcher at its desk

Surroundings of a dispatcher in which every handler is any function of all there is: it may end as
it likes, change the world, and send signals below the exit signal. The desk keeps what was taken,
what was sent and which handlers were called, so that a turn can be read off it: the lowest pending
signal is taken, and exactly the calls that it is owed are made (`turn_cases`).
-/

namespace HostServices

/-- A call of a handler. The question whether a dump was asked for goes with its answer. -/
inductive HandlerCall
  | threads (withLocks : Bool)
  | deadlocks
  | heap
  | histogram
  | asked (answer : Ending Bool)
  | dataDump
  | upcall (sig : Int)
  deriving DecidableEq, Repr

/-- The pending signals and the world of the handlers, with what happened so far, the earliest
first. -/
structure SignalDesk (ω : Type) where
  pending : PendingSignals
  world : ω
  taken : List (Fin 66) := []
  sent : List (Fin 66) := []
  calls : List HandlerCall := []

/-- What a handler does: its answer, what it makes of the world, and the signals that it sends. -/
abbrev SignalDesk.Act (ω α : Type) : Type :=
  SignalDesk ω → α × ω × List (Fin 65)

namespace SignalDesk

variable {ω α : Type}

/-- Let a handler act. Each signal that it sends is one more delivery. -/
def perform (act : Act ω α) : StateM (SignalDesk ω) α := fun s =>
  let (a, world, sent) := act s
  (a, { s with
    world
    pending := s.pending.markAll (sent.map Fin.castSucc)
    sent := s.sent ++ sent.map Fin.castSucc })

/-- Let a handler act, and write down the call. -/
def record (call : α → HandlerCall) (act : Act ω α) : StateM (SignalDesk ω) α := fun s =>
  let (a, s) := perform act s
  (a, { s with calls := s.calls ++ [call a] })

/-- The desk after one delivery of `i` was taken. -/
def withdraw (s : SignalDesk ω) (i : Fin 66) : SignalDesk ω :=
  { s with pending := s.pending.withdraw i, taken := s.taken ++ [i] }

/-- The pending signals as a channel. -/
def channel : SignalChannel (SignalDesk ω) where
  take := fun s =>
    (s.pending.take.1,
      { s with pending := s.pending.take.2, taken := s.taken ++ s.pending.lowest?.toList })
  notify sig :=
    Op.zoom (·.pending) (fun s p => { s with pending := p }) (PendingSignals.notify sig)

theorem bind_apply {σ α β : Type} (step : StateM σ α) (next : α → StateM σ β) (s : σ) :
    (step >>= next) s = next (step s).1 (step s).2 := rfl

/-! ## What handlers leave -/

/-- A step takes no signal and makes the calls `calls`; what it sends is pending. -/
structure Grows (s s' : SignalDesk ω) (calls : List HandlerCall) : Prop where
  taken : s'.taken = s.taken
  calls : s'.calls = s.calls ++ calls
  sent : ∃ sent : List (Fin 65), s'.sent = s.sent ++ sent.map Fin.castSucc ∧
    s'.pending = s.pending.markAll (sent.map Fin.castSucc)

variable {s s' s'' : SignalDesk ω} {calls calls' : List HandlerCall}

theorem Grows.refl (s : SignalDesk ω) : Grows s s [] :=
  ⟨rfl, (List.append_nil _).symm, [], (List.append_nil _).symm, rfl⟩

theorem Grows.trans (h : Grows s s' calls) (h' : Grows s' s'' calls') :
    Grows s s'' (calls ++ calls') := by
  obtain ⟨sent, hsent, hpending⟩ := h.sent
  obtain ⟨sent', hsent', hpending'⟩ := h'.sent
  refine ⟨h'.taken.trans h.taken, ?_, sent ++ sent', ?_, ?_⟩
  · rw [h'.calls, h.calls, List.append_assoc]
  · rw [hsent', hsent, List.map_append, List.append_assoc]
  · rw [hpending', hpending, List.map_append, PendingSignals.markAll_append]

/-- Only the world changes. -/
theorem Grows.of_world (s : SignalDesk ω) (world : ω) : Grows s { s with world } [] :=
  ⟨rfl, (List.append_nil _).symm, [], (List.append_nil _).symm, rfl⟩

theorem grows_perform (act : Act ω α) (s : SignalDesk ω) : Grows s (perform act s).2 [] :=
  ⟨rfl, (List.append_nil _).symm, (act s).2.2, rfl, rfl⟩

theorem grows_record (call : α → HandlerCall) (act : Act ω α) (s : SignalDesk ω) :
    Grows s (record call act s).2 [call (record call act s).1] :=
  ⟨rfl, rfl, (act s).2.2, rfl, rfl⟩

end SignalDesk

open SignalDesk (Act Grows grows_perform grows_record)

/-- An attach listener whose cell is in the world. -/
structure AttachListener (ω : Type) where
  cell : ω → AttachState
  setCell : AttachState → ω → ω
  cell_setCell : ∀ c w, cell (setCell c w) = c
  isInitTrigger : Act ω (Ending Bool)
  checkSocketFile : Act ω (Ending Bool)

/-- Everybody whom a dispatcher calls. -/
structure SignalStaff (ω : Type) where
  printThreads (withLocks : Bool) : Act ω Handled
  findDeadlocks : Act ω Handled
  printHeap : Act ω Handled
  printClassHistogram : Act ω Handled
  shouldPostDataDump : Act ω (Ending Bool)
  postDataDump : Act ω Handled
  upcall (sig : Int) : Act ω Handled
  attach : Option (AttachListener ω) := none

variable {ω : Type}

/-- A listener as the dispatcher sees it. -/
def AttachListener.mechanism (l : AttachListener ω) : AttachMechanism (SignalDesk ω) where
  state s := l.cell s.world
  setState c s := { s with world := l.setCell c s.world }
  isInitTrigger := SignalDesk.perform l.isInitTrigger
  checkSocketFile := SignalDesk.perform l.checkSocketFile

namespace SignalStaff

/-- The hooks, with each call written down. -/
def hooks (staff : SignalStaff ω) : DiagnosticHooks (SignalDesk ω) where
  printThreads withLocks := SignalDesk.record (fun _ => .threads withLocks) (staff.printThreads withLocks)
  findDeadlocks := SignalDesk.record (fun _ => .deadlocks) staff.findDeadlocks
  printHeap := SignalDesk.record (fun _ => .heap) staff.printHeap
  printClassHistogram := SignalDesk.record (fun _ => .histogram) staff.printClassHistogram
  shouldPostDataDump := SignalDesk.record .asked staff.shouldPostDataDump
  postDataDump := SignalDesk.record (fun _ => .dataDump) staff.postDataDump

/-- A dispatcher with this staff. -/
def dispatcher (staff : SignalStaff ω) (config : SignalConfig) : SignalDispatcher (SignalDesk ω) where
  channel := SignalDesk.channel
  hooks := staff.hooks
  upcall sig := SignalDesk.record (fun _ => .upcall sig) (staff.upcall sig)
  attach := staff.attach.map AttachListener.mechanism
  config := config

end SignalStaff

namespace AttachListener

variable (l : AttachListener ω) (s : SignalDesk ω)

/-- The desk when a negotiation has had its look at the cell. -/
def begun : SignalDesk ω :=
  (l.mechanism.transit .initializing .notInitialized s).2

theorem cell_begun : l.cell (l.begun s).world =
    ((l.cell s.world).transit .initializing .notInitialized).2 :=
  l.cell_setCell ..

theorem found_begun : l.mechanism.transit .initializing .notInitialized s =
    (l.cell s.world, l.begun s) :=
  rfl

variable {l s}

theorem consumes_of_initializing (h : l.cell s.world = .initializing) :
    l.mechanism.consumes s = (.returned true, l.begun s) := by
  rw [AttachMechanism.consumes, SignalDesk.bind_apply, found_begun, h]
  rfl

theorem consumes_of_initialized (h : l.cell s.world = .initialized) :
    l.mechanism.consumes s = SignalDesk.perform l.checkSocketFile (l.begun s) := by
  rw [AttachMechanism.consumes, SignalDesk.bind_apply, found_begun, h]
  rfl

theorem consumes_of_notInitialized (h : l.cell s.world = .notInitialized) :
    l.mechanism.consumes s =
      let asked := SignalDesk.perform l.isInitTrigger (l.begun s)
      if asked.1 = .returned false then
        (asked.1, { asked.2 with world := l.setCell .notInitialized asked.2.world })
      else asked := by
  have hasked : l.mechanism.isInitTrigger (l.begun s) = SignalDesk.perform l.isInitTrigger (l.begun s) :=
    rfl
  rw [AttachMechanism.consumes, SignalDesk.bind_apply, found_begun, h]
  dsimp only
  rw [SignalDesk.bind_apply, hasked]
  generalize SignalDesk.perform l.isInitTrigger (l.begun s) = asked
  rcases asked with ⟨(_ | _) | text, s'⟩ <;> rfl

variable (l s)

/-- A negotiation calls no handler of signals. -/
theorem grows_consumes : Grows s (l.mechanism.consumes s).2 [] := by
  have hbegun : Grows s (l.begun s) [] := .of_world s _
  cases hcell : l.cell s.world with
  | initializing =>
    rw [consumes_of_initializing hcell]
    exact hbegun
  | initialized =>
    rw [consumes_of_initialized hcell]
    exact hbegun.trans (grows_perform l.checkSocketFile _)
  | notInitialized =>
    have hasked := hbegun.trans (grows_perform l.isInitTrigger (l.begun s))
    rw [consumes_of_notInitialized hcell]
    dsimp only
    split
    · exact hasked.trans (.of_world _ _)
    · exact hasked

end AttachListener

/-! ## Handlers are guarded -/

namespace SignalDispatcher

variable {σ : Type}

theorem run_ofState_bind {α β : Type} (step : StateM σ α) (next : α → Op σ β) (s : σ) :
    (Op.ofState step >>= next).run s = (next (step s).1).run (step s).2 := rfl

/-- However a step of the dump ends, the next one comes. -/
theorem run_step (name : String) (handler : StateM σ Handled) (s : σ) :
    ((step name handler).run s).state = (handler s).2 ∧ ((step name handler).run s).result = .ok () := by
  unfold step
  rw [run_ofState_bind]
  cases (handler s).1.guarded <;> exact ⟨rfl, rfl⟩

end SignalDispatcher

namespace SignalStaff

variable {staff : SignalStaff ω} {config : SignalConfig} {s : SignalDesk ω} {i : Fin 66}

/-- The calls of a dump, given the answer to the question whether data are asked for. -/
def dumpCalls (config : SignalConfig) (answer : Ending Bool) : List HandlerCall :=
  [.threads config.printConcurrentLocks, .deadlocks, .heap] ++
    ((if config.printClassHistogram then [.histogram] else []) ++
      .asked answer :: if answer = .returned true then [.dataDump] else [])

theorem grows_dataDump (staff : SignalStaff ω) (s : SignalDesk ω) :
    ∃ answer, Grows s (SignalDispatcher.dataDump staff.hooks s).2
      (.asked answer :: if answer = .returned true then [.dataDump] else []) := by
  have hasked := grows_record .asked staff.shouldPostDataDump s
  have hhook : staff.hooks.shouldPostDataDump = SignalDesk.record .asked staff.shouldPostDataDump := rfl
  refine ⟨(SignalDesk.record .asked staff.shouldPostDataDump s).1, ?_⟩
  rw [SignalDispatcher.dataDump, SignalDesk.bind_apply, hhook]
  generalize SignalDesk.record .asked staff.shouldPostDataDump s = asked at hasked ⊢
  rcases asked with ⟨(_ | _) | text, s'⟩
  · exact hasked
  · exact hasked.trans (grows_record _ staff.postDataDump s')
  · exact hasked

/-- The operation goes through, and makes the calls `calls`. -/
structure Does (op : Op (SignalDesk ω) Unit) (s : SignalDesk ω) (calls : List HandlerCall) : Prop where
  grows : Grows s (op.run s).state calls
  result : (op.run s).result = .ok ()

theorem Does.bind {op : Op (SignalDesk ω) Unit} {next : Unit → Op (SignalDesk ω) Unit}
    {calls calls' : List HandlerCall} (h : Does op s calls)
    (h' : Does (next ()) (op.run s).state calls') : Does (op >>= next) s (calls ++ calls') where
  grows := by
    rw [Op.state_bind_of_ok h.result]
    exact h.grows.trans h'.grows
  result := by
    rw [Op.result_bind_of_ok h.result]
    exact h'.result

theorem does_step (name : String) {handler : StateM (SignalDesk ω) Handled} {calls : List HandlerCall}
    (h : Grows s (handler s).2 calls) : Does (SignalDispatcher.step name handler) s calls := by
  obtain ⟨hstate, hresult⟩ := SignalDispatcher.run_step name handler s
  exact ⟨hstate.symm ▸ h, hresult⟩

theorem Does.bind_exists {α : Type} {op : Op (SignalDesk ω) Unit}
    {next : Unit → Op (SignalDesk ω) Unit} {calls : List HandlerCall} {calls' : α → List HandlerCall}
    (h : Does op s calls) (h' : ∃ a, Does (next ()) (op.run s).state (calls' a)) :
    ∃ a, Does (op >>= next) s (calls ++ calls' a) :=
  h'.imp fun _ => h.bind

/-- Every step of a dump is made, whatever becomes of those before it. -/
theorem does_printDiagnostics (staff : SignalStaff ω) (config : SignalConfig) (s : SignalDesk ω) :
    ∃ answer, Does ((staff.dispatcher config).printDiagnostics) s (dumpCalls config answer) := by
  have record (name : String) (call : HandlerCall) (act : Act ω Handled) (s : SignalDesk ω) :
      Does (SignalDispatcher.step name (SignalDesk.record (fun _ => call) act)) s [call] :=
    does_step name (grows_record _ act s)
  have last (s : SignalDesk ω) : ∃ answer, Does
      (SignalDispatcher.step "post_data_dump" (SignalDispatcher.dataDump staff.hooks)) s
      (.asked answer :: if answer = .returned true then [.dataDump] else []) :=
    (grows_dataDump staff s).imp fun _ => does_step _
  unfold SignalDispatcher.printDiagnostics dumpCalls
  refine (record "print_threads" (.threads config.printConcurrentLocks) _ s).bind_exists
    ((record "find_deadlocks" .deadlocks _ _).bind_exists
      ((record "print_heap" .heap _ _).bind_exists ?_))
  by_cases hhistogram : config.printClassHistogram = true
  · simp only [dispatcher, hhistogram, if_true]
    exact (record "print_class_histogram" .histogram _ _).bind_exists (last _)
  · simp only [dispatcher, hhistogram, Bool.false_eq_true, if_false]
    exact last _

/-! ## Turns -/

theorem attaches_of_mem {staff : SignalStaff ω} {config : SignalConfig} {l : AttachListener ω}
    (hl : l ∈ staff.attach) (hconfig : config.disableAttachMechanism = false) (s : SignalDesk ω) :
    (staff.dispatcher config).attaches s = l.mechanism.consumes s := by
  unfold SignalDispatcher.attaches dispatcher
  simp only [Option.mem_def.1 hl, Option.map_some, hconfig, Bool.false_eq_true, if_false]

theorem attaches_cases (staff : SignalStaff ω) (config : SignalConfig) (s : SignalDesk ω) :
    (staff.dispatcher config).attaches s = (.returned false, s) ∨
      ∃ l ∈ staff.attach, (staff.dispatcher config).attaches s = l.mechanism.consumes s := by
  cases hattach : staff.attach with
  | none =>
    refine .inl ?_
    unfold SignalDispatcher.attaches dispatcher
    rw [hattach]
    rfl
  | some l =>
    cases hconfig : config.disableAttachMechanism with
    | true =>
      refine .inl ?_
      unfold SignalDispatcher.attaches dispatcher
      simp only [hattach, Option.map_some, hconfig, if_true]
      rfl
    | false => exact .inr ⟨l, rfl, attaches_of_mem hattach hconfig s⟩

theorem grows_attaches (staff : SignalStaff ω) (config : SignalConfig) (s : SignalDesk ω) :
    Grows s ((staff.dispatcher config).attaches s).2 [] := by
  obtain heq | ⟨l, -, heq⟩ := attaches_cases staff config s <;> rw [heq]
  · exact .refl s
  · exact l.grows_consumes s

/-- The calls that signal `i` is owed when it was taken at the desk `s`. -/
inductive Owed (staff : SignalStaff ω) (config : SignalConfig) (s : SignalDesk ω) :
    Fin 66 → List HandlerCall → Prop
  | upcall {i : Fin 66} (hi : i ≠ 3) : Owed staff config s i [.upcall i.val]
  | attached (h : ((staff.dispatcher config).attaches s).1 = .returned true) : Owed staff config s 3 []
  | dump (answer : Ending Bool) (h : ((staff.dispatcher config).attaches s).1 = .returned false) :
    Owed staff config s 3 (dumpCalls config answer)

theorem val_eq_quit_iff : (i.val : Int) = Signal.quit ↔ i = 3 := by
  rw [Fin.ext_iff]
  show (i.val : Int) = 3 ↔ i.val = 3
  omega

theorem val_eq_exit_iff : (i.val : Int) = Signal.exit ↔ i = 65 := by
  rw [Fin.ext_iff]
  show (i.val : Int) = 65 ↔ i.val = 65
  omega

/-- A signal gets the calls that it is owed, unless its negotiation panics. -/
theorem dispatch_cases (staff : SignalStaff ω) (config : SignalConfig) (s : SignalDesk ω)
    (i : Fin 66) :
    (((staff.dispatcher config).dispatch i.val).run s).result = .ok (.returned ()) ∧
        (∃ calls, Owed staff config s i calls ∧
          Grows s (((staff.dispatcher config).dispatch i.val).run s).state calls) ∨
      i = 3 ∧ ∃ text, ((staff.dispatcher config).attaches s).1 = .panicked text ∧
        (((staff.dispatcher config).dispatch i.val).run s).result = .ok (.panicked text) ∧
        (((staff.dispatcher config).dispatch i.val).run s).state =
          ((staff.dispatcher config).attaches s).2 := by
  have hattaches := grows_attaches staff config s
  unfold SignalDispatcher.dispatch
  by_cases hi : i = 3
  · subst hi
    rw [if_pos (val_eq_quit_iff.2 rfl), SignalDispatcher.run_ofState_bind]
    cases hending : ((staff.dispatcher config).attaches s).1 with
    | returned consumed =>
      cases consumed with
      | true => exact .inl ⟨rfl, [], .attached hending, hattaches⟩
      | false =>
        obtain ⟨answer, hdump⟩ := does_printDiagnostics staff config
          ((staff.dispatcher config).attaches s).2
        dsimp only
        rw [Op.state_bind_of_ok hdump.result, Op.result_bind_of_ok hdump.result]
        exact .inl ⟨rfl, _, .dump answer hending, hattaches.trans hdump.grows⟩
    | panicked text => exact .inr ⟨rfl, text, rfl, rfl, rfl⟩
  · rw [if_neg (mt val_eq_quit_iff.1 hi), SignalDispatcher.run_ofState_bind]
    have hgrows := grows_record (fun _ => .upcall i.val) (staff.upcall i.val) s
    refine .inl ?_
    cases (((staff.dispatcher config).upcall i.val) s).1.guarded <;>
      exact ⟨rfl, _, .upcall hi, hgrows⟩

theorem take_of_lowest (staff : SignalStaff ω) (config : SignalConfig)
    (h : s.pending.lowest? = some i) :
    (staff.dispatcher config).channel.take s = (some (i.val : Int), s.withdraw i) := by
  show (s.pending.take.1, ({ s with
    pending := s.pending.take.2, taken := s.taken ++ s.pending.lowest?.toList } : SignalDesk ω)) = _
  rw [PendingSignals.take_of_lowest h, h]
  rfl

theorem turn_waiting (staff : SignalStaff ω) (config : SignalConfig)
    (h : s.pending.lowest? = none) :
    (((staff.dispatcher config).turn).run s).result = .ok (some .waiting) ∧
      (((staff.dispatcher config).turn).run s).state = s := by
  have htake : (staff.dispatcher config).channel.take s = (none, s) := by
    show (s.pending.take.1, ({ s with
      pending := s.pending.take.2, taken := s.taken ++ s.pending.lowest?.toList } : SignalDesk ω)) = _
    rw [PendingSignals.take_of_none h, h, Option.toList_none, List.append_nil]
  unfold SignalDispatcher.turn
  rw [SignalDispatcher.run_ofState_bind, htake]
  exact ⟨rfl, rfl⟩

theorem turn_exit (staff : SignalStaff ω) (config : SignalConfig)
    (h : s.pending.lowest? = some 65) :
    (((staff.dispatcher config).turn).run s).result = .ok (some .terminated) ∧
      (((staff.dispatcher config).turn).run s).state = s.withdraw 65 := by
  unfold SignalDispatcher.turn
  rw [SignalDispatcher.run_ofState_bind, take_of_lowest staff config h]
  exact ⟨rfl, rfl⟩

/-- The lowest pending signal is taken and gets the calls that it is owed, unless its negotiation
panics. -/
theorem turn_cases (staff : SignalStaff ω) (config : SignalConfig)
    (h : s.pending.lowest? = some i) (hi : i ≠ 65) :
    (((staff.dispatcher config).turn).run s).result = .ok none ∧
        (∃ calls, Owed staff config (s.withdraw i) i calls ∧
          Grows (s.withdraw i) (((staff.dispatcher config).turn).run s).state calls) ∨
      i = 3 ∧ ∃ text, ((staff.dispatcher config).attaches (s.withdraw i)).1 = .panicked text ∧
        (((staff.dispatcher config).turn).run s).result = .ok (some (.panicked text)) ∧
        (((staff.dispatcher config).turn).run s).state =
          ((staff.dispatcher config).attaches (s.withdraw i)).2 := by
  unfold SignalDispatcher.turn
  rw [SignalDispatcher.run_ofState_bind, take_of_lowest staff config h]
  dsimp only
  rw [if_neg (mt val_eq_exit_iff.1 hi)]
  obtain ⟨hresult, hcalls⟩ | ⟨hquit, text, hending, hresult, hstate⟩ :=
    dispatch_cases staff config (s.withdraw i) i
  · rw [Op.state_bind_of_ok hresult, Op.result_bind_of_ok hresult]
    exact .inl ⟨rfl, hcalls⟩
  · rw [Op.state_bind_of_ok hresult, Op.result_bind_of_ok hresult]
    exact .inr ⟨hquit, text, hending, rfl, hstate⟩

end SignalStaff

end HostServices
