import HostServices.Proofs.VirtualMemory.Mapping

/-!
# The tracker and the host in step

An operation of the manager asks the host once, if its arguments are good, and lets the tracker hear
of the answer. `ManagerCall.heard` says which call of the tracker an answer is for, and `InStep` how
the two go together: the tracker stays as it was unless the operation succeeds with tracking on, and
then it changes by that call, at the address that the host answered. This holds for every operation
(`tracker_in_step`), since they share what they do with an answer (`inStep_onHost`) and with bad
arguments (`inStep_onRange`, `inStep_onSize`).
-/

namespace HostServices

/-! ## Parts that stay -/

/-- However an operation ends, a part of the state is as it was. -/
def Op.Keeps {σ α β : Type} (part : σ → β) (op : Op σ α) : Prop :=
  ∀ s, part (op.run s).state = part s

namespace Op.Keeps

variable {σ α β γ : Type} {part : σ → γ}

theorem pure (a : α) : Keeps part (pure a : Op σ α) := fun _ => rfl
theorem stop (why : Stop) : Keeps part (Op.stop why : Op σ α) := fun _ => rfl
theorem check (v : Except Fault α) : Keeps part (Op.check v : Op σ α) := fun _ => rfl

theorem bind {op : Op σ α} {next : α → Op σ β} (h : Keeps part op)
    (hnext : ∀ a, Keeps part (next a)) : Keeps part (op >>= next) := by
  intro s
  cases hresult : (op.run s).result with
  | error e =>
    rw [state_bind_of_error hresult]
    exact h s
  | ok a =>
    rw [state_bind_of_ok hresult]
    exact (hnext a _).trans (h s)

theorem ite {c : Prop} [Decidable c] {op op' : Op σ α} (h : Keeps part op) (h' : Keeps part op') :
    Keeps part (if c then op else op') := by
  split
  · exact h
  · exact h'

/-- A test before an operation. -/
theorem guarded {c : Prop} [Decidable c] {why : Stop} {next : PUnit → Op σ α}
    (h : Keeps part (next ⟨⟩)) : Keeps part (if c then Op.stop why >>= next else next ⟨⟩) :=
  ite (fun _ => rfl) h

theorem forM {f : α → Op σ PUnit} (h : ∀ a, Keeps part (f a)) (l : List α) :
    Keeps part (l.forM f) := by
  induction l with
  | nil => exact pure _
  | cons a l ih => exact (h a).bind fun _ => ih

end Op.Keeps

/-! ## What the tracker hears -/

namespace TrackerCall

/-- The end of the range that a call reserves is a word. -/
def Fits : TrackerCall → Prop
  | reserve base size _ _ | reserveCommitted base size _ _ => base.toNat + size.toNat < 2 ^ 64
  | setCategory .. | commit .. | uncommit .. | release .. => True

/-- What a call leaves of the regions. -/
def transition (call : TrackerCall) (t : Tracker) : Tracker :=
  (call.perform.run t).state

end TrackerCall

/-- An operation on the regions is a call: it leaves what the call leaves, and it stops only at a
range beyond the top, which changes nothing. -/
structure Tracker.Performs {β : Type} (call : TrackerCall) (op : Op Tracker β) : Prop where
  state : ∀ t, (op.run t).state = call.transition t
  ends : ∀ t, (∃ b, (op.run t).result = .ok b) ∨
    ¬ call.Fits ∧ call.transition t = t ∧ ∃ e, (op.run t).result = .error e

namespace Tracker

variable {base size addr : UInt64} {c : Category} {site : CallSite}

/-- Without its answer, an operation does the same. -/
theorem Performs.of_perform {β : Type} {call : TrackerCall} {op : Op Tracker β}
    (h : call.perform = do let _ ← op; return true)
    (hends : ∀ t, (∃ b, (op.run t).result = .ok b) ∨
      ¬ call.Fits ∧ (op.run t).state = t ∧ ∃ e, (op.run t).result = .error e) :
    Performs call op := by
  have hstate (t : Tracker) : (op.run t).state = call.transition t := by
    unfold TrackerCall.transition
    rw [h]
    rcases hends t with ⟨b, hresult⟩ | ⟨-, -, e, hresult⟩
    · rw [Op.state_bind_of_ok hresult]
      rfl
    · rw [Op.state_bind_of_error hresult]
  refine ⟨hstate, fun t => ?_⟩
  rw [← hstate t]
  exact hends t

theorem reserve_ends (base size : UInt64) (c : Category) (site : CallSite) (t : Tracker) :
    (∃ b, ((reserve base size c site).run t).result = .ok b) ∨
      ¬ base.toNat + size.toNat < 2 ^ 64 ∧ ((reserve base size c site).run t).state = t ∧
        ∃ e, ((reserve base size c site).run t).result = .error e := by
  by_cases hs : size = 0
  · refine .inl ⟨(), ?_⟩
    unfold reserve
    rw [if_pos hs]
    rfl
  · rcases Nat.lt_or_ge (base.toNat + size.toNat) (2 ^ 64) with hfits | hbig
    · exact .inl ⟨(), (reserve_of_lt hs hfits c site t).2⟩
    · obtain ⟨hstate, hresult⟩ := reserve_of_le hs hbig c site t
      exact .inr ⟨Nat.not_lt.2 hbig, hstate, _, hresult⟩

theorem performs_reserve :
    Performs (.reserve base size c site) (reserve base size c site) :=
  .of_perform rfl (reserve_ends base size c site)

theorem performs_reserveCommitted :
    Performs (.reserveCommitted base size c site) (reserveCommitted base size c site) := by
  refine .of_perform rfl fun t => ?_
  unfold reserveCommitted
  rcases reserve_ends base size c site t with ⟨b, hok⟩ | ⟨hfits, hstate, e, hstopped⟩
  · rw [Op.result_bind_of_ok hok, Op.result_bind_of_ok (run_commit base size _).2]
    exact .inl ⟨(), rfl⟩
  · rw [Op.result_bind_of_error hstopped, Op.state_bind_of_error hstopped]
    exact .inr ⟨hfits, hstate, e, rfl⟩

theorem performs_setCategory : Performs (.setCategory addr c) (modify (setCategory addr c)) :=
  ⟨fun _ => rfl, fun _ => .inl ⟨⟨⟩, rfl⟩⟩

theorem performs_commit : Performs (.commit addr size) (commit addr size) :=
  ⟨fun _ => rfl, fun t => .inl ⟨_, (run_commit addr size t).2⟩⟩

theorem performs_uncommit : Performs (.uncommit addr size) (uncommit addr size) :=
  ⟨fun _ => rfl, fun t => .inl ⟨_, (run_uncommit addr size t).2⟩⟩

theorem performs_release : Performs (.release addr size) (release addr size) :=
  ⟨fun _ => rfl, fun t => .inl ⟨_, (run_release addr size t).2⟩⟩

end Tracker

/-! ## One operation -/

namespace VirtualMemory

variable {π α : Type} {v : VirtualMemory π} {refusal : Option MemoryError}
  {ask : Op π (HostResult α)} {heard : α → Option TrackerCall}
  {op : Op (VirtualMemory π) (Except MemoryError α)}

/-- How an operation is in step with the host: `refusal` is what is wrong with its arguments, `ask`
its call of the host, if it passes the answer of one on, and `heard` the call of the tracker that an
answer is for, if it is for one. -/
structure InStep (refusal : Option MemoryError) (ask : Option (Op π (HostResult α)))
    (heard : α → Option TrackerCall) (op : Op (VirtualMemory π) (Except MemoryError α))
    (v : VirtualMemory π) : Prop where
  /-- With bad arguments nothing succeeds and nothing changes. -/
  refused : refusal ≠ none → (op.run v).state = v ∧ ∀ a, (op.run v).result ≠ .ok (.ok a)
  /-- What is refused, fails on the host or stops leaves the tracker as it was. -/
  unchanged : (∀ a, (op.run v).result ≠ .ok (.ok a)) → (op.run v).state.tracker = v.tracker
  /-- With tracking off, so does what succeeds. -/
  untracked : v.tracking = false → (op.run v).state.tracker = v.tracker
  /-- With tracking on, a success is heard. -/
  tracked : v.tracking = true → ∀ a, (op.run v).result = .ok (.ok a) →
    (op.run v).state.tracker = (heard a).elim v.tracker (·.transition v.tracker)
  /-- An answer is the host's. -/
  answered : ∀ a, (op.run v).result = .ok (.ok a) →
    ∀ call ∈ ask, (call.run v.host).result = .ok (.ok a)
  /-- The host's answer is passed on, unless the arguments were refused or its range has no end. -/
  granted : refusal = none → ∀ call ∈ ask, ∀ a, (call.run v.host).result = .ok (.ok a) →
    (∀ c ∈ heard a, c.Fits) → (op.run v).result = .ok (.ok a)

/-- An operation that the tracker never hears of. -/
theorem InStep.silent {ask : Option (Op π (HostResult α))} (h : InStep refusal ask heard op v)
    (hsilent : ∀ a, heard a = none) : (op.run v).state.tracker = v.tracker := by
  by_cases hok : ∃ a, (op.run v).result = .ok (.ok a)
  · obtain ⟨a, ha⟩ := hok
    cases htracking : v.tracking with
    | false => exact h.untracked htracking
    | true => rw [h.tracked htracking a ha, hsilent a, Option.elim_none]
  · exact h.unchanged fun a ha => hok ⟨a, ha⟩

/-- Only what is left and what succeeds plays a part. -/
theorem InStep.congr {ask : Option (Op π (HostResult α))}
    {op' : Op (VirtualMemory π) (Except MemoryError α)} (h : InStep refusal ask heard op v)
    (hstate : (op'.run v).state = (op.run v).state)
    (hresult : ∀ a, (op'.run v).result = .ok (.ok a) ↔ (op.run v).result = .ok (.ok a)) :
    InStep refusal ask heard op' v := by
  obtain ⟨refused, unchanged, untracked, tracked, answered, granted⟩ := h
  simp only [← hstate, ← hresult, ne_eq] at refused unchanged untracked tracked answered granted
  exact ⟨refused, unchanged, untracked, tracked, answered, granted⟩

/-- How it can end that the tracker `t` is to hear of a call and `a` is to be answered: it was
heard, or was not for lack of tracking, or the tracker stopped it. -/
inductive Ended (call : Option TrackerCall) (a : α) (tracking : Bool) (t : Tracker)
    (out : Outcome (VirtualMemory π) (Except MemoryError α)) : Prop
  | untracked (htracking : tracking = false) (hresult : out.result = .ok (.ok a))
    (htracker : out.state.tracker = t)
  | tracked (htracking : tracking = true) (hresult : out.result = .ok (.ok a))
    (htracker : out.state.tracker = call.elim t (·.transition t))
  | stopped (hbig : ∃ c ∈ call, ¬ c.Fits) {e : Stop} (hresult : out.result = .error e)
    (htracker : out.state.tracker = t)

/-- The host's answer, if it was asked, was passed on. -/
theorem InStep.of_ended {ask : Option (Op π (HostResult α))} {a : α}
    (hask : ∀ call ∈ ask, (call.run v.host).result = .ok (.ok a))
    (h : Ended (heard a) a v.tracking v.tracker (op.run v)) : InStep none ask heard op v := by
  have only (call) (hcall : call ∈ ask) (b : α) :
      (call.run v.host).result = .ok (.ok b) ↔ a = b := by
    rw [hask call hcall]
    simp
  cases h with
  | untracked htracking hresult htracker =>
    refine ⟨absurd rfl, fun hnot => absurd hresult (hnot a), fun _ => htracker, fun htracked => ?_,
      fun b hb call hcall => ?_, fun _ call hcall b hb _ => ?_⟩
    · rw [htracking] at htracked
      cases htracked
    · rw [hresult] at hb
      exact (only call hcall b).2 (Except.ok.inj (Except.ok.inj hb))
    · rw [hresult, (only call hcall b).1 hb]
  | tracked htracking hresult htracker =>
    refine ⟨absurd rfl, fun hnot => absurd hresult (hnot a), fun huntracked => ?_, fun _ b hb => ?_,
      fun b hb call hcall => ?_, fun _ call hcall b hb _ => ?_⟩
    · rw [htracking] at huntracked
      cases huntracked
    · rw [hresult] at hb
      rw [htracker, Except.ok.inj (Except.ok.inj hb)]
    · rw [hresult] at hb
      exact (only call hcall b).2 (Except.ok.inj (Except.ok.inj hb))
    · rw [hresult, (only call hcall b).1 hb]
  | stopped hbig hresult htracker =>
    refine ⟨absurd rfl, fun _ => htracker, fun _ => htracker, fun _ b hb => ?_, fun b hb => ?_,
      fun _ call hcall b hb hfits => ?_⟩
    · rw [hresult] at hb
      cases hb
    · rw [hresult] at hb
      cases hb
    · obtain ⟨c, hc, hnot⟩ := hbig
      rw [(only call hcall b).1 hb] at hc
      exact absurd (hfits c hc) hnot

/-- The host did not do what it was asked. -/
theorem InStep.of_failed (hask : ∀ a, (ask.run v.host).result ≠ .ok (.ok a))
    (hresult : ∀ a, (op.run v).result ≠ .ok (.ok a))
    (htracker : (op.run v).state.tracker = v.tracker) : InStep none (some ask) heard op v := by
  refine ⟨absurd rfl, fun _ => htracker, fun _ => htracker, fun _ a ha => absurd ha (hresult a),
    fun a ha => absurd ha (hresult a), fun _ call hcall a ha => absurd ha ?_⟩
  rw [← Option.some.inj hcall]
  exact hask a

/-! ## What is done with an answer -/

/-- The operation lets the tracker hear of a call and answers `a`. -/
def Hears (call : Option TrackerCall) (a : α) (op : Op (VirtualMemory π) (Except MemoryError α)) :
    Prop :=
  ∀ v, Ended call a v.tracking v.tracker (op.run v)

/-- The operation answers with an error and keeps the tracker. -/
def Fails (op : Op (VirtualMemory π) (Except MemoryError α)) : Prop :=
  ∀ v, (∃ e, (op.run v).result = .ok (.error e)) ∧ (op.run v).state.tracker = v.tracker

theorem hears_pure (a : α) : Hears none a (pure (.ok a) : Op (VirtualMemory π) _) := fun v => by
  cases htracking : v.tracking with
  | false => exact .untracked rfl rfl rfl
  | true => exact .tracked rfl rfl rfl

theorem record_of_untracked {β : Type} {op : Op Tracker β} (h : v.tracking = false) :
    (record op).run v = ⟨.ok (), v, []⟩ := by
  unfold record
  rw [Op.run_get_bind, if_neg (by rw [h]; decide)]
  rfl

theorem hears_record {β : Type} {call : TrackerCall} {op : Op Tracker β} {a : α}
    {rest : Op (VirtualMemory π) (Except MemoryError α)} (h : Tracker.Performs call op)
    (hrest : ∀ v, (rest.run v).result = .ok (.ok a) ∧ (rest.run v).state = v) :
    Hears (some call) a (do record op; rest) := by
  intro v
  cases htracking : v.tracking with
  | false =>
    rw [Op.run_bind_of_run (record_of_untracked htracking)]
    exact .untracked rfl (hrest v).1 (congrArg tracker (hrest v).2)
  | true =>
    rcases h.ends v.tracker with ⟨b, hok⟩ | ⟨hbig, hkept, e, hstopped⟩
    · obtain ⟨hstate, hresult⟩ := record_of_ok htracking hok
      refine .tracked rfl ?_ ?_
      · rw [Op.result_bind_of_ok hresult]
        exact (hrest _).1
      · rw [Op.state_bind_of_ok hresult, (hrest _).2, hstate]
        exact h.state v.tracker
    · have hresult := record_of_error htracking hstopped
      refine .stopped ⟨call, rfl, hbig⟩ (Op.result_bind_of_error hresult) ?_
      have hzoom : ((Op.zoom (·.tracker) (fun v t => { v with tracker := t }) op).run v).result =
          .error e := hstopped
      rw [Op.state_bind_of_error hresult]
      unfold record
      rw [Op.state_get_bind, if_pos htracking, Op.state_bind_of_error hzoom]
      exact (h.state v.tracker).trans hkept

/-- Ask the host, and do something with its answer. -/
theorem inStep_onHost {answer : HostResult α → Op (VirtualMemory π) (Except MemoryError α)}
    (hok : ∀ a, Hears (heard a) a (answer (.ok a))) (herror : ∀ e, Fails (answer (.error e)))
    (v : VirtualMemory π) : InStep none (some ask) heard (do answer (← onHost ask)) v := by
  cases hask : (ask.run v.host).result with
  | error why =>
    have hhost : ((onHost ask).run v).result = .error why := hask
    refine .of_failed (fun a ha => ?_) (fun a ha => ?_) ?_
    · rw [hask] at ha
      cases ha
    · rw [Op.result_bind_of_error hhost] at ha
      cases ha
    · rw [Op.state_bind_of_error hhost]
      rfl
  | ok result =>
    have hhost : ((onHost ask).run v).result = .ok result := hask
    cases result with
    | error e =>
      obtain ⟨⟨e', hfailed⟩, hkept⟩ := herror e ((onHost ask).run v).state
      refine .of_failed (fun a ha => ?_) (fun a ha => ?_) ?_
      · rw [hask] at ha
        cases ha
      · rw [Op.result_bind_of_ok hhost, hfailed] at ha
        cases ha
      · rw [Op.state_bind_of_ok hhost, hkept]
        rfl
    | ok a =>
      have hended := hok a ((onHost ask).run v).state
      refine .of_ended (a := a) (fun call hcall => ?_) ?_
      · rw [← Option.some.inj hcall]
        exact hask
      rw [Op.run_bind_of_ok hhost]
      cases hended with
      | untracked htracking hresult htracker => exact .untracked htracking hresult htracker
      | tracked htracking hresult htracker => exact .tracked htracking hresult htracker
      | stopped hbig hresult htracker => exact .stopped hbig hresult htracker

/-! ## What is wrong with the arguments -/

section arguments

variable {ask : Option (Op π (HostResult α))}

theorem InStep.of_refusal {e : MemoryError} (h : op.run v = ⟨.ok (.error e), v, []⟩) :
    InStep (some e) ask heard op v := by
  have hresult (a : α) : (op.run v).result ≠ .ok (.ok a) := by
    rw [h]
    nofun
  have hstate : (op.run v).state = v := by rw [h]
  exact ⟨fun _ => ⟨hstate, hresult⟩, fun _ => congrArg tracker hstate,
    fun _ => congrArg tracker hstate, fun _ a ha => absurd ha (hresult a),
    fun a ha => absurd ha (hresult a), nofun⟩

theorem inStep_onRange (addr bytes : UInt64) (h : InStep none ask heard op v) :
    InStep (rangeProblem addr bytes) ask heard (onRange addr bytes op) v := by
  unfold onRange
  cases rangeProblem addr bytes with
  | some e => exact .of_refusal rfl
  | none => exact h

/-- What is wrong with a request: it has no bytes. -/
def sizeProblem (addr : Option UInt64) (bytes : UInt64) : Option MemoryError :=
  if bytes = 0 then some (.invalidRange (addr.getD 0) bytes) else none

theorem inStep_onSize (addr : Option UInt64) (bytes : UInt64) (h : InStep none ask heard op v) :
    InStep (sizeProblem addr bytes) ask heard (onSize addr bytes op) v := by
  unfold onSize sizeProblem
  by_cases hbytes : bytes = 0
  · rw [if_pos hbytes, if_pos hbytes]
    exact .of_refusal rfl
  · rw [if_neg hbytes, if_neg hbytes]
    exact h

end arguments

/-- An operation that keeps the tracker and is never heard. -/
theorem InStep.of_keeps (h : Op.Keeps tracker op) : InStep none none (fun _ => none) op v :=
  ⟨absurd rfl, fun _ => h v, fun _ => h v, fun _ _ _ => h v, nofun, nofun⟩

/-! ## Helpers of several operations -/

section helpers

variable {addr bytes : UInt64} {c : Category} {site : CallSite}

theorem inStep_giveUp (operation : String) (ask : Op π (HostResult Unit))
    (error : Errno → MemoryError) (v : VirtualMemory π) :
    InStep (rangeProblem addr bytes) (some ask) (fun _ => some (.release addr bytes))
      (giveUp operation addr bytes ask error) v :=
  inStep_onRange addr bytes <| inStep_onHost
    (fun _ => hears_record Tracker.performs_release fun _ => ⟨rfl, rfl⟩)
    (fun _ _ => ⟨⟨_, rfl⟩, rfl⟩) v

theorem inStep_commitBy (executable : Bool) (ask : Op π (HostResult Unit)) (v : VirtualMemory π) :
    InStep (rangeProblem addr bytes) (some ask) (fun _ => some (.commit addr bytes))
      (commitBy addr bytes executable ask) v :=
  inStep_onRange addr bytes <| inStep_onHost
    (fun _ => hears_record Tracker.performs_commit fun _ => ⟨rfl, rfl⟩)
    (fun _ _ => ⟨⟨_, rfl⟩, rfl⟩) v

theorem inStep_mapBy (ask : Op π (HostResult UInt64)) (v : VirtualMemory π) :
    InStep none (some ask) (fun a => some (.reserveCommitted a bytes c site))
      (mapBy bytes c site ask) v :=
  inStep_onHost (fun _ => hears_record Tracker.performs_reserveCommitted fun _ => ⟨rfl, rfl⟩)
    (fun _ _ => ⟨⟨_, rfl⟩, rfl⟩) v

end helpers

end VirtualMemory

/-! ## Every operation -/

/-- An operation of the manager, by what it answers. -/
inductive ManagerCall : Type → Type
  | reserve (bytes : UInt64) (executable : Bool) (c : Category) (site : CallSite) :
    ManagerCall UInt64
  | reserveAt (addr bytes : UInt64) (executable : Bool) (site : CallSite) : ManagerCall UInt64
  | setCategory (addr : UInt64) (c : Category) : ManagerCall Unit
  | commit (addr bytes : UInt64) (executable : Bool) : ManagerCall Unit
  | commitAligned (addr bytes hint : UInt64) (executable : Bool) : ManagerCall Unit
  | commitOrExit (addr bytes : UInt64) (executable : Bool) (context : String) : ManagerCall Unit
  | uncommit (addr bytes : UInt64) (executable : Bool) : ManagerCall Unit
  | release (addr bytes : UInt64) : ManagerCall Unit
  | reserveSpecial (bytes alignment page : UInt64) (addr : Option UInt64) (executable : Bool)
    (site : CallSite) : ManagerCall UInt64
  | releaseSpecial (addr bytes : UInt64) : ManagerCall Unit
  | mapToFile (bytes : UInt64) (descriptor : Int) (c : Category) (site : CallSite) :
    ManagerCall UInt64
  | mapToFileAt (addr bytes : UInt64) (descriptor : Int) (c : Category) (site : CallSite) :
    ManagerCall UInt64
  | map (view : FileView) (addr : Option UInt64) (bytes : UInt64) (c : Category)
    (site : CallSite) : ManagerCall UInt64
  | remap (view : FileView) (addr bytes : UInt64) : ManagerCall UInt64
  | unmap (addr bytes : UInt64) : ManagerCall Unit
  | freeMemory (addr bytes hint : UInt64) : ManagerCall Unit
  | realign (addr bytes hint : UInt64) : ManagerCall Unit
  | guardPages (addr bytes : UInt64) : ManagerCall Unit
  | pretouch (start stop page : UInt64) : ManagerCall Unit

namespace ManagerCall

variable {π α : Type}

open VirtualMemory (rangeProblem sizeProblem)

/-- What is wrong with the arguments of an operation. -/
def refusal : ManagerCall α → Option MemoryError
  | reserve bytes .. | mapToFile bytes .. => sizeProblem none bytes
  | reserveSpecial bytes _ _ addr .. | map _ addr bytes .. => sizeProblem addr bytes
  | reserveAt addr bytes .. | commit addr bytes .. | commitAligned addr bytes ..
  | commitOrExit addr bytes .. | uncommit addr bytes .. | release addr bytes
  | releaseSpecial addr bytes | mapToFileAt addr bytes .. | remap _ addr bytes | unmap addr bytes
  | freeMemory addr bytes _ | realign addr bytes _ | guardPages addr bytes =>
    rangeProblem addr bytes
  | setCategory .. | pretouch .. => none

/-- The call of the tracker that an answer of an operation is for. -/
def heard : ManagerCall α → α → Option TrackerCall
  | reserve bytes _ c site, a => some (.reserve a bytes c site)
  | reserveAt _ bytes _ site, a => some (.reserve a bytes .uncharged site)
  | setCategory addr c, _ => some (.setCategory addr c)
  | commit addr bytes _, _ | commitAligned addr bytes .., _ | commitOrExit addr bytes .., _ =>
    some (.commit addr bytes)
  | uncommit addr bytes _, _ => some (.uncommit addr bytes)
  | release addr bytes, _ | releaseSpecial addr bytes, _ | unmap addr bytes, _ =>
    some (.release addr bytes)
  | reserveSpecial bytes _ _ _ _ site, a => some (.reserveCommitted a bytes .uncharged site)
  | mapToFile bytes _ c site, a | mapToFileAt _ bytes _ c site, a | map _ _ bytes c site, a =>
    some (.reserveCommitted a bytes c site)
  | remap .., _ | freeMemory .., _ | realign .., _ | guardPages .., _ | pretouch .., _ => none

variable [MemoryHost π]

/-- Perform an operation. One without errors of its own succeeds when it returns. -/
def perform : ManagerCall α → Op (VirtualMemory π) (Except MemoryError α)
  | reserve bytes executable c site => VirtualMemory.reserve bytes executable c site
  | reserveAt addr bytes executable site => VirtualMemory.reserveAt addr bytes executable site
  | setCategory addr c => do VirtualMemory.setCategory addr c; return .ok ()
  | commit addr bytes executable => VirtualMemory.commit addr bytes executable
  | commitAligned addr bytes hint executable =>
    VirtualMemory.commitAligned addr bytes hint executable
  | commitOrExit addr bytes executable context => do
    VirtualMemory.commitOrExit addr bytes executable context
    return .ok ()
  | uncommit addr bytes executable => VirtualMemory.uncommit addr bytes executable
  | release addr bytes => VirtualMemory.release addr bytes
  | reserveSpecial bytes alignment page addr executable site =>
    VirtualMemory.reserveSpecial bytes alignment page addr executable site
  | releaseSpecial addr bytes => VirtualMemory.releaseSpecial addr bytes
  | mapToFile bytes descriptor c site => VirtualMemory.mapToFile bytes descriptor c site
  | mapToFileAt addr bytes descriptor c site =>
    VirtualMemory.mapToFileAt addr bytes descriptor c site
  | map view addr bytes c site => VirtualMemory.map view addr bytes c site
  | remap view addr bytes => VirtualMemory.remap view addr bytes
  | unmap addr bytes => VirtualMemory.unmap addr bytes
  | freeMemory addr bytes hint => VirtualMemory.freeMemory addr bytes hint
  | realign addr bytes hint => VirtualMemory.realign addr bytes hint
  | guardPages addr bytes => VirtualMemory.guardPages addr bytes
  | pretouch start stop page => do VirtualMemory.pretouch start stop page; return .ok ()

/-- The call of the host that an operation passes the answer of on. -/
def ask : ManagerCall α → Option (Op π (HostResult α))
  | reserve bytes executable _ _ => some (MemoryHost.reserve bytes executable)
  | reserveAt addr bytes executable _ => some (MemoryHost.reserveAt addr bytes executable)
  | commit addr bytes executable | commitOrExit addr bytes executable _ =>
    some (MemoryHost.commit addr bytes executable)
  | commitAligned addr bytes hint executable =>
    some (MemoryHost.commitAligned addr bytes hint executable)
  | uncommit addr bytes executable => some (MemoryHost.uncommit addr bytes executable)
  | release addr bytes => some (MemoryHost.release addr bytes)
  | reserveSpecial bytes alignment page addr executable _ =>
    some (MemoryHost.reserveSpecial bytes alignment page addr executable)
  | releaseSpecial addr bytes => some (MemoryHost.releaseSpecial addr bytes)
  | mapToFile bytes descriptor _ _ => some (MemoryHost.mapToFile none bytes descriptor)
  | mapToFileAt addr bytes descriptor _ _ =>
    some (MemoryHost.mapToFile (some addr) bytes descriptor)
  | map view addr bytes _ _ => some (MemoryHost.mapFile view addr bytes)
  | remap view addr bytes => some (MemoryHost.remapFile view addr bytes)
  | unmap addr bytes => some (MemoryHost.unmap addr bytes)
  | guardPages addr bytes => some (MemoryHost.guardPages addr bytes)
  | setCategory .. | freeMemory .. | realign .. | pretouch .. => none

end ManagerCall

namespace VirtualMemory

variable {π α : Type}

theorem keeps_onHost (op : Op π α) : Op.Keeps tracker (onHost op) := fun _ => rfl

variable [MemoryHost π]

theorem keeps_touchEvery (first stop step : UInt64) (positive : step ≠ 0) :
    Op.Keeps tracker (touchEvery (π := π) first stop step positive) := by
  refine (Op.Keeps.check _).bind fun last => ?_
  refine (Op.Keeps.forM (fun a => keeps_onHost _) _).bind fun _ => ?_
  cases (touches last step first positive).2 with
  | false => exact .stop _
  | true => exact .pure _

theorem keeps_pretouch (start stop page : UInt64) :
    Op.Keeps tracker (pretouch (π := π) start stop page) := by
  unfold pretouch
  refine .guarded <| .guarded <| .guarded <| .ite (.pure _) <| (keeps_onHost _).bind fun step => ?_
  split
  · exact .pure _
  · exact keeps_touchEvery _ _ _ _

/-- A commit that ends the process on failure leaves what the commit leaves, and returns exactly if
the commit succeeds. -/
theorem commitOrExit_ends (addr bytes : UInt64) (executable : Bool) (context : String)
    (v : VirtualMemory π) :
    ((commitOrExit addr bytes executable context).run v).state =
        ((commit addr bytes executable).run v).state ∧
      (((commitOrExit addr bytes executable context).run v).result = .ok () ↔
        ((commit addr bytes executable).run v).result = .ok (.ok ())) := by
  unfold commitOrExit
  cases hresult : ((commit addr bytes executable).run v).result with
  | error why =>
    rw [Op.state_bind_of_error hresult, Op.result_bind_of_error hresult]
    exact ⟨rfl, iff_of_false nofun nofun⟩
  | ok answer =>
    rw [Op.state_bind_of_ok hresult, Op.result_bind_of_ok hresult]
    cases answer with
    | error e => exact ⟨rfl, iff_of_false nofun nofun⟩
    | ok a => exact ⟨rfl, iff_of_true rfl rfl⟩

theorem inStep_commitOrExit (addr bytes : UInt64) (executable : Bool) (context : String)
    (v : VirtualMemory π) :
    InStep (rangeProblem addr bytes) (some (MemoryHost.commit addr bytes executable))
      (fun _ => some (.commit addr bytes))
      (do commitOrExit addr bytes executable context; return .ok ()) v := by
  obtain ⟨hstate, hresult⟩ := commitOrExit_ends addr bytes executable context v
  have hcommit : InStep (rangeProblem addr bytes) (some (MemoryHost.commit addr bytes executable))
      (fun _ => some (.commit addr bytes)) (commit addr bytes executable) v :=
    inStep_commitBy executable _ v
  cases hexit : ((commitOrExit addr bytes executable context).run v).result with
  | error why =>
    refine hcommit.congr ?_ fun _ => iff_of_false ?_ fun hok => ?_
    · rw [Op.state_bind_of_error hexit, hstate]
    · rw [Op.result_bind_of_error hexit]
      nofun
    · rw [hresult.2 hok] at hexit
      cases hexit
  | ok u =>
    refine hcommit.congr ?_ fun _ => iff_of_true ?_ (hresult.1 hexit)
    · rw [Op.state_bind_of_ok hexit]
      exact hstate
    · rw [Op.result_bind_of_ok hexit]
      rfl

/-- Every operation keeps the tracker in step with the host, and one whose answer is for no call of
the tracker never changes it. -/
theorem tracker_in_step (call : ManagerCall α) (v : VirtualMemory π) :
    InStep call.refusal call.ask call.heard call.perform v ∧
      ((∀ a, call.heard a = none) → (call.perform.run v).state.tracker = v.tracker) := by
  have hstep : InStep call.refusal call.ask call.heard call.perform v := by
    cases call with
    | reserve bytes executable c site =>
      exact inStep_onSize none bytes <| inStep_onHost
        (fun _ => hears_record Tracker.performs_reserve fun _ => ⟨rfl, rfl⟩)
        (fun _ _ => ⟨⟨_, rfl⟩, rfl⟩) v
    | reserveAt addr bytes executable site =>
      exact inStep_onRange addr bytes <| inStep_onHost
        (fun _ => hears_record Tracker.performs_reserve fun _ => ⟨rfl, rfl⟩)
        (fun _ _ => ⟨⟨_, rfl⟩, rfl⟩) v
    | setCategory addr c =>
      exact .of_ended nofun
        (hears_record (a := ()) Tracker.performs_setCategory (fun _ => ⟨rfl, rfl⟩) v)
    | commit addr bytes executable => exact inStep_commitBy executable _ v
    | commitAligned addr bytes hint executable => exact inStep_commitBy executable _ v
    | commitOrExit addr bytes executable context =>
      exact inStep_commitOrExit addr bytes executable context v
    | uncommit addr bytes executable =>
      exact inStep_onRange addr bytes <| inStep_onHost
        (fun _ => hears_record Tracker.performs_uncommit fun _ => ⟨rfl, rfl⟩)
        (fun _ _ => ⟨⟨_, rfl⟩, rfl⟩) v
    | release addr bytes => exact inStep_giveUp _ _ _ v
    | reserveSpecial bytes alignment page addr executable site =>
      exact inStep_onSize addr bytes <| inStep_onHost
        (fun _ => hears_record Tracker.performs_reserveCommitted fun _ => ⟨rfl, rfl⟩)
        (fun _ _ => ⟨⟨_, rfl⟩, rfl⟩) v
    | releaseSpecial addr bytes => exact inStep_giveUp _ _ _ v
    | mapToFile bytes descriptor c site => exact inStep_onSize none bytes (inStep_mapBy _ v)
    | mapToFileAt addr bytes descriptor c site => exact inStep_onRange addr bytes (inStep_mapBy _ v)
    | map view addr bytes c site => exact inStep_onSize addr bytes (inStep_mapBy _ v)
    | remap view addr bytes =>
      exact inStep_onRange addr bytes <|
        inStep_onHost (fun a => hears_pure a) (fun _ _ => ⟨⟨_, rfl⟩, rfl⟩) v
    | unmap addr bytes => exact inStep_giveUp _ _ _ v
    | freeMemory addr bytes hint =>
      exact inStep_onRange addr bytes (.of_keeps ((keeps_onHost _).bind fun _ => .pure _))
    | realign addr bytes hint =>
      exact inStep_onRange addr bytes (.of_keeps ((keeps_onHost _).bind fun _ => .pure _))
    | guardPages addr bytes =>
      exact inStep_onRange addr bytes <|
        inStep_onHost (fun a => hears_pure a) (fun _ _ => ⟨⟨_, rfl⟩, rfl⟩) v
    | pretouch start stop page =>
      exact .of_keeps ((keeps_pretouch start stop page).bind fun _ => .pure _)
  exact ⟨hstep, hstep.silent⟩

end VirtualMemory

end HostServices
