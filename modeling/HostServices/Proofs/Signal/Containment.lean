import HostServices.Proofs.Signal.Loop

/-!
# What ends a dispatcher

Hooks and upcalls end no thread, however they end themselves. The negotiation with the attach
listener is not guarded like them: a listener that panics takes the thread with it, and leaves its
cell where the negotiation put it (`panickingListener_ends_thread`). Nothing else but the exit signal
ends a thread (`serve_contains`).
-/

namespace HostServices

namespace AttachListener

variable {ω : Type} {l : AttachListener ω} {s : SignalDesk ω}

/-- A listener that takes a request has started, and one that runs is not starting. -/
structure Proper (l : AttachListener ω) : Prop where
  started : ∀ s, (l.isInitTrigger s).1 = .returned true → l.cell (l.isInitTrigger s).2.1 = .initialized
  running : ∀ s, l.cell s.world = .initialized → l.cell (l.checkSocketFile s).2.1 ≠ .initializing

/-- A negotiation that returns leaves no cell at `initializing` that it found elsewhere. -/
theorem Proper.cell_consumes (h : l.Proper) (hfound : l.cell s.world ≠ .initializing) {consumed : Bool}
    (hreturned : (l.mechanism.consumes s).1 = .returned consumed) :
    l.cell (l.mechanism.consumes s).2.world ≠ .initializing := by
  have hbegun := l.cell_begun s
  cases hcell : l.cell s.world with
  | initializing => exact absurd hcell hfound
  | initialized =>
    rw [hcell] at hbegun
    rw [consumes_of_initialized hcell]
    exact h.running (l.begun s) hbegun
  | notInitialized =>
    rw [consumes_of_notInitialized hcell] at hreturned ⊢
    dsimp only at hreturned ⊢
    split at hreturned
    case isTrue hnone =>
      rw [if_pos hnone]
      show l.cell (l.setCell _ _) ≠ _
      rw [l.cell_setCell]
      decide
    case isFalse hsome =>
      rw [if_neg hsome]
      obtain rfl : consumed = true := Bool.eq_true_of_not_eq_false fun hfalse =>
        hsome (hfalse ▸ hreturned)
      show l.cell (l.isInitTrigger (l.begun s)).2.1 ≠ _
      rw [h.started (l.begun s) hreturned]
      decide

/-- A listener that panics before it moves its cell leaves it at `initializing`. -/
theorem cell_consumes_of_panicked (l : AttachListener ω) {text : Option String}
    (hfound : l.cell s.world = .notInitialized)
    (hpanicked : (l.isInitTrigger (l.begun s)).1 = .panicked text)
    (hcell : l.cell (l.isInitTrigger (l.begun s)).2.1 = l.cell (l.begun s).world) :
    (l.mechanism.consumes s).1 = .panicked text ∧
      l.cell (l.mechanism.consumes s).2.world = .initializing := by
  have hbegun := l.cell_begun s
  rw [hfound] at hbegun
  have hnone : (SignalDesk.perform l.isInitTrigger (l.begun s)).1 ≠ .returned false := by
    rw [show (SignalDesk.perform l.isInitTrigger (l.begun s)).1 = _ from hpanicked]
    exact nofun
  rw [consumes_of_notInitialized hfound]
  dsimp only
  rw [if_neg hnone]
  exact ⟨hpanicked, hcell.trans hbegun⟩

/-- Every later negotiation leaves its signal to the one that never ended. -/
theorem consumed_of_initializing (l : AttachListener ω) (hfound : l.cell s.world = .initializing) :
    (l.mechanism.consumes s).1 = .returned true ∧
      l.cell (l.mechanism.consumes s).2.world = .initializing := by
  have hbegun := l.cell_begun s
  rw [hfound] at hbegun
  rw [consumes_of_initializing hfound]
  exact ⟨rfl, hbegun⟩

end AttachListener

namespace SignalStaff

variable {ω : Type} {staff : SignalStaff ω} {config : SignalConfig} {s s' : SignalDesk ω}

theorem Stops.ne_busy {rest : DispatcherRest} (h : Stops staff config s rest s') : rest ≠ .busy := by
  cases h <;> exact nofun

theorem Stops.panicked_iff {rest : DispatcherRest} (h : Stops staff config s rest s') :
    (∃ text, rest = .panicked text) ↔ s.pending.lowest? = some 3 ∧
      ∃ text, ((staff.dispatcher config).attaches (s.withdraw 3)).1 = .panicked text := by
  cases h with
  | waiting hlowest => simp [hlowest]
  | terminated hlowest => simp [hlowest]
  | panicked hlowest hlistener => simp [hlowest, hlistener]

/-- A quit signal that was served has been negotiated to an end. -/
theorem Serves.returned (h : Serves staff config s s') (hlowest : s.pending.lowest? = some 3) :
    ∃ consumed, ((staff.dispatcher config).attaches (s.withdraw 3)).1 = .returned consumed := by
  obtain ⟨i, calls, -, hi, howed, -⟩ := h
  obtain rfl : i = 3 := Option.some.inj (hi.symm.trans hlowest)
  cases howed with
  | upcall hquit => exact absurd rfl hquit
  | attached h => exact ⟨true, h⟩
  | dump answer h => exact ⟨false, h⟩

/-- A thread panics at a quit signal whose negotiation panics, and nowhere else. -/
theorem serve_panicked_iff (staff : SignalStaff ω) (config : SignalConfig) (start : SignalDesk ω)
    (k : ℕ) :
    (∃ text, (((staff.dispatcher config).serve k).run start).result = .ok (.panicked text)) ↔
      ∃ j < k, (((staff.dispatcher config).serve j).run start).result = .ok .busy ∧
        (deskAfter staff config start j).pending.lowest? = some 3 ∧
        ∃ text, ((staff.dispatcher config).attaches
          ((deskAfter staff config start j).withdraw 3)).1 = .panicked text := by
  obtain ⟨n, hn, hbusy, hserves, hends⟩ := serve_until staff config start k
  have hreturned (j : ℕ) (hj : j < n) (hlowest : (deskAfter staff config start j).pending.lowest? = some 3) :
      ¬ ∃ text, ((staff.dispatcher config).attaches
        ((deskAfter staff config start j).withdraw 3)).1 = .panicked text := by
    obtain ⟨consumed, hreturned⟩ := (hserves j hj).returned hlowest
    simp [hreturned]
  constructor
  · rintro ⟨text, hpanicked⟩
    obtain rfl | ⟨rest, hstops⟩ := hends
    · rw [hbusy n le_rfl] at hpanicked
      cases hpanicked
    · have hlt : n < k := lt_of_le_of_ne hn fun heq => by
        rw [← heq, hbusy n le_rfl] at hpanicked
        cases hpanicked
      obtain ⟨hresult, hwhy⟩ := hstops k hlt
      obtain rfl : rest = .panicked text := Except.ok.inj (hresult.symm.trans hpanicked)
      exact ⟨n, hlt, hbusy n le_rfl, hwhy.panicked_iff.1 ⟨text, rfl⟩⟩
  · rintro ⟨j, hjk, hj, hlowest, hlistener⟩
    obtain hlt | hle := lt_or_ge j n
    · exact absurd hlistener (hreturned j hlt hlowest)
    · obtain rfl | ⟨rest, hstops⟩ := hends
      · omega
      · obtain hlt | rfl := hle.lt_or_eq
        · obtain ⟨hresult, hwhy⟩ := hstops j hlt
          exact absurd (Except.ok.inj (hresult.symm.trans hj)) hwhy.ne_busy
        · obtain ⟨hresult, hwhy⟩ := hstops k hjk
          obtain ⟨text, rfl⟩ := hwhy.panicked_iff.2 ⟨hlowest, hlistener⟩
          exact ⟨text, hresult⟩

/-- Whatever becomes of hooks and upcalls, a thread serves one signal after another until none is
left, the exit signal is taken or the listener panics, which is the only way for it to panic; and a
negotiation that returns leaves no cell of a proper listener at `initializing`. One that panics before
the listener has moved its cell leaves it there, and every later one takes the signal and leaves it
there too. -/
theorem serve_contains (staff : SignalStaff ω) (config : SignalConfig) (start : SignalDesk ω) (k : ℕ) :
    (∃ n ≤ k, (∀ j ≤ n, (((staff.dispatcher config).serve j).run start).result = .ok .busy) ∧
      (∀ j < n, Serves staff config (deskAfter staff config start j)
        (deskAfter staff config start (j + 1))) ∧
      (n = k ∨ ∃ rest, ∀ m > n, (((staff.dispatcher config).serve m).run start).result = .ok rest ∧
        Stops staff config (deskAfter staff config start n) rest (deskAfter staff config start m))) ∧
    ((∃ text, (((staff.dispatcher config).serve k).run start).result = .ok (.panicked text)) ↔
      ∃ j < k, (((staff.dispatcher config).serve j).run start).result = .ok .busy ∧
        (deskAfter staff config start j).pending.lowest? = some 3 ∧
        ∃ text, ((staff.dispatcher config).attaches
          ((deskAfter staff config start j).withdraw 3)).1 = .panicked text) ∧
    (∀ l ∈ staff.attach, l.Proper → ∀ s, l.cell s.world ≠ .initializing →
      ∀ consumed, ((staff.dispatcher config).attaches s).1 = .returned consumed →
        l.cell ((staff.dispatcher config).attaches s).2.world ≠ .initializing) ∧
    ∀ l ∈ staff.attach, config.disableAttachMechanism = false → ∀ s,
      (l.cell s.world = .notInitialized → ∀ text, (l.isInitTrigger (l.begun s)).1 = .panicked text →
        l.cell (l.isInitTrigger (l.begun s)).2.1 = l.cell (l.begun s).world →
        ((staff.dispatcher config).attaches s).1 = .panicked text ∧
          l.cell ((staff.dispatcher config).attaches s).2.world = .initializing) ∧
      (l.cell s.world = .initializing →
        ((staff.dispatcher config).attaches s).1 = .returned true ∧
          l.cell ((staff.dispatcher config).attaches s).2.world = .initializing) := by
  refine ⟨serve_until staff config start k, serve_panicked_iff staff config start k,
    fun l hl hproper s hfound consumed hreturned => ?_, fun l hl hconfig s => ?_⟩
  · obtain heq | ⟨l', hl', heq⟩ := attaches_cases staff config s <;> rw [heq] at hreturned ⊢
    · exact hfound
    · obtain rfl := Option.mem_unique hl hl'
      exact hproper.cell_consumes hfound hreturned
  · rw [attaches_of_mem hl hconfig s]
    exact ⟨fun hfound _ hpanicked hcell => l.cell_consumes_of_panicked hfound hpanicked hcell,
      fun hfound => l.consumed_of_initializing hfound⟩

/-- A staff whose attach listener panics when it looks for a request. -/
def fragile : SignalStaff AttachState :=
  { restless with
    attach := some <| plainListener (fun s => (.panicked (some "listener failed"), s.world, []))
      fun s => (.returned false, s.world, []) }

/-- The thread ends at the first quit signal without a dump. The exit signal was not taken, the
request to end is never handled, and the cell stays at `initializing`. -/
theorem panickingListener_ends_thread :
    (((fragile.dispatcher {}).serve 5).run
        { pending := quitTwice, world := .notInitialized }).result =
        .ok (.panicked (some "listener failed")) ∧
      (deskAfter fragile {} { pending := quitTwice, world := .notInitialized } 5).world =
        .initializing ∧
      (deskAfter fragile {} { pending := quitTwice, world := .notInitialized } 5).taken = [3] ∧
      (deskAfter fragile {} { pending := quitTwice, world := .notInitialized } 5).calls = [] ∧
      (deskAfter fragile {} { pending := quitTwice, world := .notInitialized } 5).pending.toList =
        [(3, 1), (15, 1), (65, 1)] :=
  ⟨by rfl, by rfl, by rfl, by rfl, by decide +kernel⟩

end SignalStaff

end HostServices
