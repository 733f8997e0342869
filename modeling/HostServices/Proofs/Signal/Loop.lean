import HostServices.Proofs.Signal.Desk
import Mathlib.Algebra.Order.BigOperators.Group.Finset
import Mathlib.Data.Fintype.Fin

/-!
# A dispatcher at work

A thread serves one signal after another until it stops (`serve_until`): because nothing is pending,
the exit signal is the lowest one, or the attach listener panics. Each turn takes one delivery that
was marked before (`Tallied.turn`); so if the listener never panics and the handlers send finitely
many signals, the exit signal is taken at last, when nothing else is pending (`serve_drains`).
-/

namespace HostServices

namespace SignalDispatcher

variable {σ : Type}

/-- The state after some turns that all let the thread go on. -/
def after (d : SignalDispatcher σ) (s : σ) : ℕ → σ
  | 0 => s
  | k + 1 => (d.turn.run (d.after s k)).state

/-- A turn from `s` lets the thread go on. -/
def GoesOn (d : SignalDispatcher σ) (s : σ) : Prop :=
  (d.turn.run s).result = .ok none

variable {d : SignalDispatcher σ} {s : σ} {n k : ℕ}

theorem after_succ' (d : SignalDispatcher σ) (s : σ) (k : ℕ) :
    d.after s (k + 1) = d.after (d.turn.run s).state k := by
  induction k with
  | zero => rfl
  | succ k ih =>
    rw [after, ih]
    rfl

/-- Turns that let the thread go on, and then the others. -/
theorem serve_add (h : ∀ j < n, d.GoesOn (d.after s j)) (m : ℕ) :
    ((d.serve (n + m)).run s).result = ((d.serve m).run (d.after s n)).result ∧
      ((d.serve (n + m)).run s).state = ((d.serve m).run (d.after s n)).state := by
  induction n generalizing s with
  | zero =>
    rw [Nat.zero_add]
    exact ⟨rfl, rfl⟩
  | succ n ih =>
    have hturn : (d.turn.run s).result = .ok none := h 0 n.succ_pos
    rw [Nat.add_right_comm, after_succ', serve, Op.result_bind_of_ok hturn, Op.state_bind_of_ok hturn]
    refine ih fun j hj => ?_
    rw [← after_succ']
    exact h (j + 1) (Nat.succ_lt_succ hj)

theorem serve_of_goesOn (h : ∀ j < n, d.GoesOn (d.after s j)) :
    ((d.serve n).run s).result = .ok .busy ∧ ((d.serve n).run s).state = d.after s n :=
  serve_add h 0

/-- The thread rests after the first turn that does not let it go on. -/
theorem serve_of_rest {rest : DispatcherRest} (h : ∀ j < n, d.GoesOn (d.after s j))
    (hrest : (d.turn.run (d.after s n)).result = .ok (some rest)) (hk : n < k) :
    ((d.serve k).run s).result = .ok rest ∧ ((d.serve k).run s).state = d.after s (n + 1) := by
  obtain ⟨m, rfl⟩ := Nat.exists_eq_add_of_lt hk
  obtain ⟨hresult, hstate⟩ := serve_add h (m + 1)
  rw [Nat.add_assoc, hresult, hstate, serve, Op.result_bind_of_ok hrest, Op.state_bind_of_ok hrest]
  exact ⟨rfl, rfl⟩

/-- A thread at rest needs no more turns. -/
theorem serve_settled {rest : DispatcherRest} (h : ((d.serve k).run s).result = .ok rest)
    (hrest : rest ≠ .busy) (m : ℕ) : (d.serve (k + m)).run s = (d.serve k).run s := by
  induction k generalizing s with
  | zero => exact absurd (Except.ok.inj h).symm hrest
  | succ k ih =>
    rw [Nat.add_right_comm]
    rw [serve] at h ⊢
    rw [serve]
    cases hturn : (d.turn.run s).result with
    | error stop =>
      rw [Op.result_bind_of_error hturn] at h
      cases h
    | ok ends =>
      cases ends with
      | some rest => rw [Op.run_bind_of_ok hturn, Op.run_bind_of_ok hturn]
      | none =>
        rw [Op.result_bind_of_ok hturn] at h
        rw [Op.run_bind_of_ok hturn, Op.run_bind_of_ok hturn]
        dsimp only
        rw [ih h]

end SignalDispatcher

open SignalDesk (Grows)

namespace SignalDesk

variable {ω : Type} {pending : PendingSignals} {s s' : SignalDesk ω} {i : Fin 66}
  {calls : List HandlerCall}

/-- How often the counter of `j` goes round in a turn from `s` to `s'`. Each time 2 ^ 32 deliveries
are lost. -/
def rounds (s s' : SignalDesk ω) (j : Fin 66) : ℕ :=
  ((s.pending.take.2.counts.get j).toNat + (s'.sent.count j - s.sent.count j)) / 2 ^ 32

/-- Deliveries of `j` that were pending first or sent are taken, pending or lost in `lost` rounds. -/
def Tallied (pending : PendingSignals) (lost : ℕ) (s : SignalDesk ω) (j : Fin 66) : Prop :=
  s.taken.count j + (s.pending.counts.get j).toNat + 2 ^ 32 * lost =
    (pending.counts.get j).toNat + s.sent.count j

theorem Tallied.first (pending : PendingSignals) (world : ω) (j : Fin 66) :
    Tallied pending 0 { pending, world } j := by
  simp [Tallied]

/-- A turn takes one delivery, and what its handlers send is pending. -/
theorem Tallied.turn {lost : ℕ} {j : Fin 66} (htallied : Tallied pending lost s j)
    (hlowest : s.pending.lowest? = some i) (hgrows : Grows (s.withdraw i) s' calls) :
    Tallied pending (lost + rounds s s' j) s' j := by
  obtain ⟨sent, hsent, hpending⟩ := hgrows.sent
  have hwithdrawn := PendingSignals.toNat_withdraw (PendingSignals.lowest?_eq_some_iff.1 hlowest).1 j
  have htaken : s'.taken.count j = s.taken.count j + if i = j then 1 else 0 := by
    rw [hgrows.taken, withdraw, List.count_append, List.count_singleton]
    simp
  have hcount : s'.sent.count j = s.sent.count j + (sent.map Fin.castSucc).count j := by
    rw [hsent, withdraw, List.count_append]
  have hmarked : (s'.pending.counts.get j).toNat =
      (((s.pending.withdraw i).counts.get j).toNat + (sent.map Fin.castSucc).count j) % 2 ^ 32 := by
    rw [hpending, withdraw, PendingSignals.toNat_markAll]
  have hrounds : rounds s s' j =
      (((s.pending.withdraw i).counts.get j).toNat + (sent.map Fin.castSucc).count j) / 2 ^ 32 := by
    rw [rounds, PendingSignals.take_of_lowest hlowest, hcount, Nat.add_sub_cancel_left]
  have hround := Nat.mod_add_div
    (((s.pending.withdraw i).counts.get j).toNat + (sent.map Fin.castSucc).count j) (2 ^ 32)
  rw [← hmarked, ← hrounds] at hround
  unfold Tallied at htallied ⊢
  rw [htaken, hcount, Nat.mul_add]
  omega

theorem sum_count (l : List (Fin 66)) : ∑ i, l.count i = l.length := by
  have hsum := Multiset.sum_count_eq_card fun i (_ : i ∈ (l : Multiset (Fin 66))) => Finset.mem_univ i
  simpa only [Multiset.coe_count, Multiset.coe_card] using hsum

/-- No more is taken than was pending first or sent. -/
theorem length_taken_le {lost : Fin 66 → ℕ} (h : ∀ j, Tallied pending (lost j) s j) :
    s.taken.length ≤ ∑ i, (pending.counts.get i).toNat + s.sent.length := by
  rw [← sum_count, ← sum_count, ← Finset.sum_add_distrib]
  refine Finset.sum_le_sum fun i _ => ?_
  have htallied := h i
  unfold Tallied at htallied
  omega

/-- Nobody sends the exit signal. -/
theorem get_exit_of_grows (hi : i ≠ 65) (hgrows : Grows (s.withdraw i) s' calls) :
    s'.pending.counts.get 65 = s.pending.counts.get 65 := by
  obtain ⟨sent, -, hpending⟩ := hgrows.sent
  have hexit : (65 : Fin 66) ∉ sent.map Fin.castSucc := by
    intro hmem
    obtain ⟨j, -, hj⟩ := List.mem_map.1 hmem
    exact Fin.castSucc_ne_last j hj
  rw [hpending, PendingSignals.get_markAll_of_notMem hexit, withdraw, PendingSignals.get_withdraw,
    if_neg hi]

end SignalDesk

namespace SignalStaff

variable {ω : Type} {staff : SignalStaff ω} {config : SignalConfig} {start s s' : SignalDesk ω}
  {i : Fin 66} {k n : ℕ}

/-! ## Runs -/

/-- A turn from `s` to `s'` takes the lowest pending signal and makes the calls that it is owed. -/
def Serves (staff : SignalStaff ω) (config : SignalConfig) (s s' : SignalDesk ω) : Prop :=
  ∃ i calls, i < 65 ∧ s.pending.lowest? = some i ∧ Owed staff config (s.withdraw i) i calls ∧
    Grows (s.withdraw i) s' calls

/-- Why a thread rests that goes no further than `s`, and the desk that it leaves. -/
inductive Stops (staff : SignalStaff ω) (config : SignalConfig) (s : SignalDesk ω) :
    DispatcherRest → SignalDesk ω → Prop
  | waiting (h : s.pending.lowest? = none) : Stops staff config s .waiting s
  | terminated (h : s.pending.lowest? = some 65) : Stops staff config s .terminated (s.withdraw 65)
  | panicked {text : Option String} (h : s.pending.lowest? = some 3)
      (hlistener : ((staff.dispatcher config).attaches (s.withdraw 3)).1 = .panicked text) :
    Stops staff config s (.panicked text) ((staff.dispatcher config).attaches (s.withdraw 3)).2

/-- A turn serves a signal and lets the thread go on, or the thread stops. -/
theorem turn_serves_or_stops (staff : SignalStaff ω) (config : SignalConfig) (s : SignalDesk ω) :
    ((staff.dispatcher config).GoesOn s ∧
        Serves staff config s (((staff.dispatcher config).turn).run s).state) ∨
      ∃ rest, (((staff.dispatcher config).turn).run s).result = .ok (some rest) ∧
        Stops staff config s rest (((staff.dispatcher config).turn).run s).state := by
  cases hlowest : s.pending.lowest? with
  | none =>
    obtain ⟨hresult, hstate⟩ := turn_waiting staff config hlowest
    exact .inr ⟨.waiting, hresult, hstate.symm ▸ .waiting hlowest⟩
  | some i =>
    by_cases hi : i = 65
    · subst hi
      obtain ⟨hresult, hstate⟩ := turn_exit staff config hlowest
      exact .inr ⟨.terminated, hresult, hstate.symm ▸ .terminated hlowest⟩
    · obtain ⟨hresult, calls, howed, hgrows⟩ | ⟨rfl, text, hlistener, hresult, hstate⟩ :=
        turn_cases staff config hlowest hi
      · exact .inl ⟨hresult, i, calls, by omega, hlowest, howed, hgrows⟩
      · exact .inr ⟨.panicked text, hresult, hstate.symm ▸ .panicked hlowest hlistener⟩

/-- The desk after at most `k` turns. -/
def deskAfter (staff : SignalStaff ω) (config : SignalConfig) (start : SignalDesk ω) (k : ℕ) :
    SignalDesk ω :=
  (((staff.dispatcher config).serve k).run start).state

/-- Of `k` turns all serve a signal, or those before the thread stops. -/
theorem serves_until (staff : SignalStaff ω) (config : SignalConfig) (start : SignalDesk ω) (k : ℕ) :
    ∃ n ≤ k, (∀ j < n, (staff.dispatcher config).GoesOn ((staff.dispatcher config).after start j) ∧
        Serves staff config ((staff.dispatcher config).after start j)
          ((staff.dispatcher config).after start (j + 1))) ∧
      (n = k ∨ ∃ rest,
        (((staff.dispatcher config).turn).run ((staff.dispatcher config).after start n)).result =
          .ok (some rest) ∧
        Stops staff config ((staff.dispatcher config).after start n) rest
          ((staff.dispatcher config).after start (n + 1))) := by
  induction k with
  | zero => exact ⟨0, le_rfl, fun j hj => absurd hj j.not_lt_zero, .inl rfl⟩
  | succ k ih =>
    obtain ⟨n, hn, hserves, rfl | hstops⟩ := ih
    · obtain hturn | hstops :=
        turn_serves_or_stops staff config ((staff.dispatcher config).after start n)
      · refine ⟨n + 1, le_rfl, fun j hj => ?_, .inl rfl⟩
        obtain hlt | rfl := Nat.lt_succ_iff_lt_or_eq.1 hj
        · exact hserves j hlt
        · exact hturn
      · exact ⟨n, n.le_succ, hserves, .inr hstops⟩
    · exact ⟨n, hn.trans k.le_succ, hserves, .inr hstops⟩

/-- A thread serves one signal after another until it stops. -/
theorem serve_until (staff : SignalStaff ω) (config : SignalConfig) (start : SignalDesk ω) (k : ℕ) :
    ∃ n ≤ k, (∀ j ≤ n, (((staff.dispatcher config).serve j).run start).result = .ok .busy) ∧
      (∀ j < n, Serves staff config (deskAfter staff config start j)
        (deskAfter staff config start (j + 1))) ∧
      (n = k ∨ ∃ rest, ∀ m > n, (((staff.dispatcher config).serve m).run start).result = .ok rest ∧
        Stops staff config (deskAfter staff config start n) rest (deskAfter staff config start m)) := by
  obtain ⟨n, hn, hserves, hends⟩ := serves_until staff config start k
  have hbusy (j : ℕ) (hj : j ≤ n) := SignalDispatcher.serve_of_goesOn
    fun m (hm : m < j) => (hserves m (hm.trans_le hj)).1
  refine ⟨n, hn, fun j hj => (hbusy j hj).1, fun j hj => ?_, hends.imp_right ?_⟩
  · rw [deskAfter, deskAfter, (hbusy j hj.le).2, (hbusy (j + 1) hj).2]
    exact (hserves j hj).2
  · rintro ⟨rest, hrest, hstops⟩
    refine ⟨rest, fun m hm => ?_⟩
    obtain ⟨hresult, hstate⟩ := SignalDispatcher.serve_of_rest (fun j hj => (hserves j hj).1) hrest hm
    rw [deskAfter, deskAfter, (hbusy n le_rfl).2, hstate]
    exact ⟨hresult, hstops⟩

/-! ## What a run takes -/

/-- The desk `s` after `k` turns from `start` that each served a signal. -/
structure Midway (staff : SignalStaff ω) (config : SignalConfig) (start : SignalDesk ω) (k : ℕ) :
    Prop where
  length : (deskAfter staff config start k).taken.length = k
  exit : (deskAfter staff config start k).pending.counts.get 65 = start.pending.counts.get 65
  tallied : ∀ j, SignalDesk.Tallied start.pending
    (∑ m ∈ Finset.range k, SignalDesk.rounds (deskAfter staff config start m)
      (deskAfter staff config start (m + 1)) j) (deskAfter staff config start k) j

theorem midway (pending : PendingSignals) (world : ω)
    (h : ∀ j < k, Serves staff config (deskAfter staff config { pending, world } j)
      (deskAfter staff config { pending, world } (j + 1))) :
    Midway staff config { pending, world } k := by
  induction k with
  | zero => exact ⟨rfl, rfl, .first pending world⟩
  | succ k ih =>
    have hmidway := ih fun j hj => h j (Nat.lt_succ_of_lt hj)
    obtain ⟨i, calls, hi, hlowest, -, hgrows⟩ := h k k.lt_succ_self
    refine ⟨?_, (SignalDesk.get_exit_of_grows hi.ne hgrows).trans hmidway.exit, fun j => ?_⟩
    · rw [hgrows.taken, SignalDesk.withdraw, List.length_append, hmidway.length]
      rfl
    · rw [Finset.sum_range_succ]
      exact (hmidway.tallied j).turn hlowest hgrows

/-! ## The whole run -/

/-- The attach listener, if there is one, always returns. -/
def Calm (staff : SignalStaff ω) : Prop :=
  ∀ l ∈ staff.attach, ∀ s, (∃ b, (l.isInitTrigger s).1 = .returned b) ∧
    ∃ b, (l.checkSocketFile s).1 = .returned b

theorem Calm.attaches (h : staff.Calm) (config : SignalConfig) (s : SignalDesk ω) :
    ∃ b, ((staff.dispatcher config).attaches s).1 = .returned b := by
  obtain heq | ⟨l, hl, heq⟩ := attaches_cases staff config s <;> rw [heq]
  · exact ⟨false, rfl⟩
  · obtain ⟨hasked, hfound⟩ := h l hl (l.begun s)
    cases hcell : l.cell s.world with
    | initializing =>
      rw [AttachListener.consumes_of_initializing hcell]
      exact ⟨true, rfl⟩
    | initialized =>
      rw [AttachListener.consumes_of_initialized hcell]
      exact hfound
    | notInitialized =>
      rw [AttachListener.consumes_of_notInitialized hcell]
      dsimp only
      split <;> exact hasked

/-- With a calm listener and an exit signal pending, a thread stops only to take the exit signal. -/
theorem Stops.terminated_of_calm {rest : DispatcherRest} (h : Stops staff config s rest s')
    (hcalm : staff.Calm) (hexit : s.pending.counts.get 65 ≠ 0) :
    s.pending.lowest? = some 65 ∧ rest = .terminated ∧ s' = s.withdraw 65 := by
  cases h with
  | waiting hnone => exact absurd (PendingSignals.lowest?_eq_none_iff.1 hnone 65) hexit
  | terminated hlowest => exact ⟨hlowest, rfl, rfl⟩
  | panicked hlowest hlistener =>
    obtain ⟨b, hreturned⟩ := hcalm.attaches config (s.withdraw 3)
    rw [hreturned] at hlistener
    cases hlistener

/-- The thread takes `n` signals below the exit signal, then the exit signal, and ends. -/
structure Drains (staff : SignalStaff ω) (config : SignalConfig) (start : SignalDesk ω) (n : ℕ) :
    Prop where
  /-- Nothing ends the thread before. -/
  busy : ∀ k ≤ n, (((staff.dispatcher config).serve k).run start).result = .ok .busy
  serves : ∀ k < n, Serves staff config (deskAfter staff config start k)
    (deskAfter staff config start (k + 1))
  /-- When the exit signal is taken nothing else is pending. -/
  idle : ∀ i < 65, (deskAfter staff config start n).pending.counts.get i = 0
  /-- Every delivery that was pending first or sent was taken once, but for those that were lost when
  their counter went round. -/
  delivered : ∀ i < 65, (deskAfter staff config start n).taken.count i +
      2 ^ 32 * ∑ k ∈ Finset.range n, SignalDesk.rounds (deskAfter staff config start k)
        (deskAfter staff config start (k + 1)) i =
    (start.pending.counts.get i).toNat + (deskAfter staff config start n).sent.count i
  terminated : ∀ k > n,
    (((staff.dispatcher config).serve k).run start).result = .ok .terminated ∧
      deskAfter staff config start k = (deskAfter staff config start n).withdraw 65

/-- A thread with a calm listener, an exit signal pending and finitely many signals to come takes the
lowest signal each time, handles every one below the exit signal, and then ends. However handlers
end makes no difference. -/
theorem serve_drains (staff : SignalStaff ω) (hcalm : staff.Calm) (config : SignalConfig)
    (pending : PendingSignals) (world : ω) (hexit : pending.counts.get 65 ≠ 0)
    (hfinite : ∃ bound, ∀ k, (deskAfter staff config { pending, world } k).sent.length ≤ bound) :
    ∃ n, Drains staff config { pending, world } n := by
  obtain ⟨bound, hbound⟩ := hfinite
  -- One turn more than there are signals to serve.
  obtain ⟨n, -, hbusy, hserves, hends⟩ := serve_until staff config { pending, world }
    (∑ i, (pending.counts.get i).toNat + bound + 1)
  have hmidway := midway pending world hserves
  have htaken := SignalDesk.length_taken_le hmidway.tallied
  rw [hmidway.length] at htaken
  obtain hall | ⟨rest, hstops⟩ := hends
  · have hsent := hbound n
    dsimp only at htaken
    omega
  · have hterminated (k : ℕ) (hk : k > n) :=
      (hstops k hk).2.terminated_of_calm hcalm (hmidway.exit.symm ▸ hexit)
    obtain ⟨hlowest, rfl, -⟩ := hterminated (n + 1) n.lt_succ_self
    have hidle := (PendingSignals.lowest?_eq_some_iff.1 hlowest).2
    refine ⟨n, hbusy, hserves, hidle, fun i hi => ?_, fun k hk =>
      ⟨(hstops k hk).1, (hterminated k hk).2.2⟩⟩
    have htallied := hmidway.tallied i
    rwa [SignalDesk.Tallied, hidle i hi] at htallied

/-- A listener that leaves its cell, which is all the world, to its two handlers. -/
def plainListener (isInitTrigger checkSocketFile : SignalDesk.Act AttachState (Ending Bool)) :
    AttachListener AttachState where
  cell := id
  setCell c _ := c
  cell_setCell _ _ := rfl
  isInitTrigger
  checkSocketFile

/-- A staff that starts its listener at the first quit signal. No step of its dump ends well, and it
sends signals from the dump and from one of its upcalls. -/
def restless : SignalStaff AttachState where
  printThreads _ s := (.panicked none, s.world, [])
  findDeadlocks s := (.returned (.error "no locks"), s.world, [])
  printHeap s := (.panicked (some "heap"), s.world, [10])
  printClassHistogram s := (.returned (.error "no classes"), s.world, [])
  shouldPostDataDump s := (.returned true, s.world, [])
  postDataDump s := (.panicked none, s.world, [])
  upcall sig s := (.panicked none, s.world, if sig = 15 then [3] else [])
  attach := some <| plainListener (fun _ => (.returned true, .initialized, []))
    fun s => (.returned false, s.world, [])

theorem calm_restless : restless.Calm := by
  rintro l hl s
  obtain rfl := Option.mem_some_iff.1 hl
  exact ⟨⟨true, rfl⟩, false, rfl⟩

/-- Two quit signals and a request to end, before the exit signal. -/
def quitTwice : PendingSignals :=
  PendingSignals.empty.markAll [3, 65, 15, 3]

theorem settles_restless : (((restless.dispatcher {}).serve 7).run
    { pending := quitTwice, world := .notInitialized }).result = .ok .terminated := by
  rfl

theorem length_sent_restless (k : ℕ) : (deskAfter restless {}
    { pending := quitTwice, world := .notInitialized } k).sent.length ≤ 3 := by
  have hfirst : ∀ k < 8, (deskAfter restless {}
      { pending := quitTwice, world := .notInitialized } k).sent.length ≤ 3 := by
    decide +kernel
  obtain hk | ⟨m, rfl⟩ := (lt_or_ge k 8).imp_right Nat.exists_eq_add_of_le
  · exact hfirst k hk
  · have hsettled := SignalDispatcher.serve_settled settles_restless (by decide) (1 + m)
    rw [← Nat.add_assoc] at hsettled
    have hdesk : deskAfter restless {} { pending := quitTwice, world := .notInitialized } (7 + 1 + m) =
        deskAfter restless {} { pending := quitTwice, world := .notInitialized } 7 :=
      congrArg (·.state) hsettled
    rw [hdesk]
    exact hfirst 7 (by omega)

theorem serve_drains_restless :
    restless.Calm ∧ quitTwice.counts.get 65 ≠ 0 ∧
      (∀ k, (deskAfter restless {} { pending := quitTwice, world := .notInitialized } k).sent.length ≤ 3) ∧
      ∃ n, Drains restless {} { pending := quitTwice, world := .notInitialized } n := by
  have hexit : quitTwice.counts.get 65 ≠ 0 := by decide +kernel
  exact ⟨calm_restless, hexit, length_sent_restless,
    serve_drains restless calm_restless {} quitTwice .notInitialized hexit ⟨3, length_sent_restless⟩⟩

end SignalStaff

end HostServices
