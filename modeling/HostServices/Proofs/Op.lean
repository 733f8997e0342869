import HostServices.Op
import HostServices.Proofs.Word

/-!
# What operations leave behind

The state and the result of an operation made of others. The events that it reports play no part
in either.
-/

namespace HostServices.Op

variable {σ τ α β γ : Type}

/-! ## One step -/

@[simp] theorem state_pure (a : α) (s : σ) : ((pure a : Op σ α).run s).state = s := rfl
@[simp] theorem result_pure (a : α) (s : σ) : ((pure a : Op σ α).run s).result = .ok a := rfl

@[simp] theorem state_zoom (part : σ → τ) (put : σ → τ → σ) (op : Op τ α) (s : σ) :
    ((zoom part put op).run s).state = put s (op.run (part s)).state := rfl
@[simp] theorem result_zoom (part : σ → τ) (put : σ → τ → σ) (op : Op τ α) (s : σ) :
    ((zoom part put op).run s).result = (op.run (part s)).result := rfl

/-! ## One after another -/

theorem run_get_bind (next : σ → Op σ β) (s : σ) : (get >>= next).run s = (next s).run s := rfl
theorem run_pure_bind (a : α) (next : α → Op σ β) (s : σ) :
    (pure a >>= next).run s = (next a).run s := rfl

theorem run_check_bind (a : α) (next : α → Op σ β) (s : σ) :
    (check (.ok a) >>= next).run s = (next a).run s := rfl

theorem run_fault_bind (fault : Fault) (next : α → Op σ β) (s : σ) :
    (check (.error fault) >>= next).run s = ⟨.error (.fault fault), s, []⟩ := rfl

theorem run_modify_bind (f : σ → σ) (next : PUnit → Op σ β) (s : σ) :
    (modify f >>= next).run s = (next ⟨⟩).run (f s) := rfl

@[simp] theorem state_get_bind (next : σ → Op σ β) (s : σ) :
    ((get >>= next).run s).state = ((next s).run s).state := rfl
@[simp] theorem result_get_bind (next : σ → Op σ β) (s : σ) :
    ((get >>= next).run s).result = ((next s).run s).result := rfl

@[simp] theorem state_set_bind (s' : σ) (next : PUnit → Op σ β) (s : σ) :
    ((set s' >>= next).run s).state = ((next ⟨⟩).run s').state := rfl
@[simp] theorem result_set_bind (s' : σ) (next : PUnit → Op σ β) (s : σ) :
    ((set s' >>= next).run s).result = ((next ⟨⟩).run s').result := rfl

@[simp] theorem state_modify_bind (f : σ → σ) (next : PUnit → Op σ β) (s : σ) :
    ((modify f >>= next).run s).state = ((next ⟨⟩).run (f s)).state := rfl
@[simp] theorem result_modify_bind (f : σ → σ) (next : PUnit → Op σ β) (s : σ) :
    ((modify f >>= next).run s).result = ((next ⟨⟩).run (f s)).result := rfl

section bind

variable {op : Op σ α} {next : α → Op σ β} {s : σ}

theorem run_bind_of_ok {a : α} (h : (op.run s).result = .ok a) :
    (op >>= next).run s = ⟨((next a).run (op.run s).state).result,
      ((next a).run (op.run s).state).state,
      (op.run s).events ++ ((next a).run (op.run s).state).events⟩ := by
  show Op.bind op next s = _
  unfold Op.bind run at *
  split <;> rename_i heq <;> rw [heq] at h ⊢
  · obtain rfl := Except.ok.inj h
    rfl
  · cases h

theorem run_bind_of_error {e : Stop} (h : (op.run s).result = .error e) :
    (op >>= next).run s = ⟨.error e, (op.run s).state, (op.run s).events⟩ := by
  show Op.bind op next s = _
  unfold Op.bind run at *
  split <;> rename_i heq <;> rw [heq] at h ⊢
  · cases h
  · obtain rfl := Except.error.inj h
    rfl

theorem state_bind_of_ok {a : α} (h : (op.run s).result = .ok a) :
    ((op >>= next).run s).state = ((next a).run (op.run s).state).state := by
  rw [run_bind_of_ok h]

theorem result_bind_of_ok {a : α} (h : (op.run s).result = .ok a) :
    ((op >>= next).run s).result = ((next a).run (op.run s).state).result := by
  rw [run_bind_of_ok h]

theorem state_bind_of_error {e : Stop} (h : (op.run s).result = .error e) :
    ((op >>= next).run s).state = (op.run s).state := by
  rw [run_bind_of_error h]

theorem result_bind_of_error {e : Stop} (h : (op.run s).result = .error e) :
    ((op >>= next).run s).result = .error e := by
  rw [run_bind_of_error h]

/-- A last step that only gives the result on. -/
theorem bind_pure_self (op : Op σ α) : (op >>= fun a => pure a) = op := by
  funext s
  show (op >>= fun a => pure a).run s = op.run s
  cases h : op.run s with
  | mk result state events =>
    cases result with
    | ok a =>
      rw [run_bind_of_ok (a := a) (by rw [h]), h]
      show Outcome.mk _ _ (events ++ []) = _
      rw [List.append_nil]
      rfl
    | error e => rw [run_bind_of_error (e := e) (by rw [h]), h]

/-- A first step without events. -/
theorem run_bind_of_run {a : α} {s' : σ} (h : op.run s = ⟨.ok a, s', []⟩) :
    (op >>= next).run s = (next a).run s' := by
  rw [run_bind_of_ok (show (op.run s).result = .ok a by rw [h]), h]
  rfl

end bind

/-- Steps that change nothing, one for each member of a list, change nothing. -/
theorem forM_unchanged {f : γ → Op σ PUnit} {s : σ}
    (h : ∀ x, ((f x).run s).state = s ∧ ((f x).run s).result = .ok ⟨⟩) (l : List γ) :
    ((l.forM f).run s).state = s ∧ ((l.forM f).run s).result = .ok ⟨⟩ := by
  induction l with
  | nil => exact ⟨rfl, rfl⟩
  | cons x xs ih =>
    obtain ⟨hs, hr⟩ := h x
    rw [show (x :: xs).forM f = f x >>= fun _ => xs.forM f from rfl, state_bind_of_ok hr,
      result_bind_of_ok hr, hs]
    exact ih

/-! ## Sums that must be words -/

theorem state_add (a b : UInt64) (s : σ) : ((Op.add a b : Op σ UInt64).run s).state = s := rfl

theorem result_add_of_lt {a b : UInt64} (h : a.toNat + b.toNat < 2 ^ 64) (s : σ) :
    ((Op.add a b : Op σ UInt64).run s).result = .ok (a + b) := by
  show (Checked.add a b).mapError Stop.fault = _
  rw [Checked.add, Word.add?_of_lt h]
  rfl

theorem result_add_of_le {a b : UInt64} (h : 2 ^ 64 ≤ a.toNat + b.toNat) (s : σ) :
    ((Op.add a b : Op σ UInt64).run s).result = .error (.fault .addOverflow) := by
  show (Checked.add a b).mapError Stop.fault = _
  rw [Checked.add, Word.add?_of_le h]
  rfl

end HostServices.Op
