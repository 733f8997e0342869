import HostServices.Proofs.Signal.Desk
import Mathlib.Logic.Function.Basic
import Mathlib.Logic.Relation

/-!
# Negotiations side by side

Any number of negotiations with one cell, their steps in any order. Run by itself the steps of a
negotiation are `AttachMechanism.consumes` (`alone_eq_consumes`). A step wins the cell, resolves it,
or does neither and leaves it (`effect_advance`). So the cell is `initializing` just while one
negotiation owns it (`Owned`), which makes it safe that a reset does not look at the cell: the only
one that resets is the owner.
-/

namespace HostServices

/-- Where a negotiation is. -/
inductive Negotiation
  | fresh
  /-- The transit was won; a request is still to be looked for. -/
  | asking
  /-- There is no request, and the cell is still to be reset. -/
  | resetting
  /-- The listener was running; its endpoint is still to be looked at. -/
  | checking
  /-- The look for a request panicked, so that the cell is never resolved. -/
  | abandoned (text : Option String)
  | done (ending : Ending Bool)
  deriving DecidableEq, Repr

namespace Negotiation

/-- The transit was won, and the cell is not resolved. -/
def Deciding : Negotiation → Prop
  | asking | resetting | abandoned _ => True
  | fresh | checking | done _ => False

/-- The answer of a negotiation that is over. -/
def ending? : Negotiation → Option (Ending Bool)
  | done ending => some ending
  | abandoned text => some (.panicked text)
  | fresh | asking | resetting | checking => none

/-- Where the transit leads that found the cell as it says. -/
def afterTransit : AttachState → Negotiation
  | .initializing => done (.returned true)
  | .notInitialized => asking
  | .initialized => checking

/-- Where the look for a request leads. -/
def afterLook : Ending Bool → Negotiation
  | .returned true => done (.returned true)
  | .returned false => resetting
  | .panicked text => abandoned text

end Negotiation

namespace AttachMechanism

variable {σ : Type}

/-- One step of a negotiation. -/
def advance (a : AttachMechanism σ) : Negotiation → StateM σ Negotiation
  | .fresh => Negotiation.afterTransit <$> a.transit .initializing .notInitialized
  | .asking => Negotiation.afterLook <$> a.isInitTrigger
  | .resetting => (fun _ => .done (.returned false)) <$> modify (a.setState .notInitialized)
  | .checking => Negotiation.done <$> a.checkSocketFile
  | n => pure n

theorem advance_fresh (a : AttachMechanism σ) (s : σ) :
    a.advance .fresh s = (.afterTransit (a.state s),
      a.setState ((a.state s).transit .initializing .notInitialized).2 s) := rfl

/-- The steps of a negotiation with none of another in between. -/
def alone (a : AttachMechanism σ) : StateM σ (Option (Ending Bool)) := fun s =>
  let (n, s) := a.advance .fresh s
  let (n, s) := a.advance n s
  let (n, s) := a.advance n s
  (n.ending?, s)

/-- By itself a negotiation ends as `consumes` says, with the same state. -/
theorem alone_eq_consumes (a : AttachMechanism σ) (s : σ) :
    a.alone s = (some (a.consumes s).1, (a.consumes s).2) := by
  have hfound : a.transit .initializing .notInitialized s =
      (a.state s, a.setState ((a.state s).transit .initializing .notInitialized).2 s) := rfl
  rw [alone, advance_fresh, consumes, SignalDesk.bind_apply, hfound]
  cases a.state s with
  | initializing => rfl
  | initialized => rfl
  | notInitialized =>
    dsimp only
    rw [SignalDesk.bind_apply]
    generalize a.setState _ s = begun
    show (let (n, s) := a.advance (.afterLook (a.isInitTrigger begun).1) (a.isInitTrigger begun).2;
      (n.ending?, s)) = _
    generalize a.isInitTrigger begun = looked
    rcases looked with ⟨(_ | _) | text, s'⟩ <;> rfl

end AttachMechanism

/-- Negotiations with one cell. A look for a request sets the cell to `initialized` just when it
answers that there is one, and apart from that only the negotiations themselves write the cell. -/
structure SharedListener (ι σ : Type) where
  cell : σ → AttachState
  setCell : AttachState → σ → σ
  isInitTrigger (i : ι) : StateM σ (Ending Bool)
  checkSocketFile (i : ι) : StateM σ (Ending Bool)
  cell_setCell : ∀ c s, cell (setCell c s) = c
  cell_isInitTrigger : ∀ i s, cell (isInitTrigger i s).2 =
    if (isInitTrigger i s).1 = .returned true then .initialized else cell s
  cell_checkSocketFile : ∀ i s, cell (checkSocketFile i s).2 = cell s

/-- Where every negotiation is, and the state that they share. -/
structure Negotiations (ι σ : Type) where
  world : σ
  stage : ι → Negotiation := fun _ => .fresh

namespace SharedListener

variable {ι σ : Type} (l : SharedListener ι σ)

/-- The listener as negotiation `i` sees it. -/
def mechanism (i : ι) : AttachMechanism σ where
  state := l.cell
  setState := l.setCell
  isInitTrigger := l.isInitTrigger i
  checkSocketFile := l.checkSocketFile i

/-! ## What a step does to the cell -/

/-- A step from one stage and cell to others wins the cell, resolves it, or leaves it as it was
with the negotiation deciding before and after or neither. -/
inductive Effect (stage : Negotiation) (cell : AttachState) (stage' : Negotiation)
    (cell' : AttachState) : Prop
  | win (hcell : cell ≠ .initializing) (hstage' : stage'.Deciding) (hcell' : cell' = .initializing)
  | resolve (hstage : stage.Deciding) (hstage' : ¬stage'.Deciding) (hcell' : cell' ≠ .initializing)
  | leave (hstage : stage.Deciding ↔ stage'.Deciding) (hcell : cell' = cell)

theorem effect_advance (i : ι) (stage : Negotiation) (s : σ) :
    Effect stage (l.cell s) ((l.mechanism i).advance stage s).1
      (l.cell ((l.mechanism i).advance stage s).2) := by
  cases stage with
  | fresh =>
    rw [AttachMechanism.advance_fresh]
    show Effect .fresh (l.cell s) (.afterTransit (l.cell s))
      (l.cell (l.setCell ((l.cell s).transit .initializing .notInitialized).2 s))
    rw [l.cell_setCell]
    cases l.cell s with
    | notInitialized => exact .win (by decide) trivial rfl
    | initializing => exact .leave Iff.rfl rfl
    | initialized => exact .leave Iff.rfl rfl
  | asking =>
    have hcell := l.cell_isInitTrigger i s
    show Effect .asking (l.cell s) (.afterLook (l.isInitTrigger i s).1)
      (l.cell (l.isInitTrigger i s).2)
    cases hlook : (l.isInitTrigger i s).1 with
    | returned request =>
      rw [hlook] at hcell
      cases request with
      | true => exact .resolve trivial id (by rw [hcell, if_pos rfl]; decide)
      | false => exact .leave Iff.rfl hcell
    | panicked text =>
      rw [hlook] at hcell
      exact .leave Iff.rfl hcell
  | resetting =>
    refine .resolve trivial id ?_
    show l.cell (l.setCell .notInitialized s) ≠ .initializing
    rw [l.cell_setCell]
    decide
  | checking => exact .leave Iff.rfl (l.cell_checkSocketFile i s)
  | abandoned text => exact .leave Iff.rfl rfl
  | done ending => exact .leave Iff.rfl rfl

/-! ## The owner of the cell -/

variable {n n' : Negotiations ι σ} {owner : Option ι}

/-- The cell is `initializing` just while it has an owner, and the owner is the one negotiation that
is deciding. -/
structure Owned (n : Negotiations ι σ) (owner : Option ι) : Prop where
  cell : l.cell n.world = .initializing ↔ owner.isSome
  deciding : ∀ i, (n.stage i).Deciding ↔ owner = some i

variable {l}

theorem Owned.fresh {s : σ} (h : l.cell s ≠ .initializing) : l.Owned ⟨s, fun _ => .fresh⟩ none :=
  ⟨by simpa using h, fun i => by simp [Negotiation.Deciding]⟩

variable [DecidableEq ι]

variable (l) in
/-- Let negotiation `i` take its next step. -/
def advance (i : ι) (n : Negotiations ι σ) : Negotiations ι σ :=
  let (stage, world) := (l.mechanism i).advance (n.stage i) n.world
  ⟨world, Function.update n.stage i stage⟩

variable (l) in
/-- A negotiation takes its next step, or something else happens that does not write the cell. -/
inductive Step (n : Negotiations ι σ) : Negotiations ι σ → Prop
  | advance (i : ι) : Step n (l.advance i n)
  | elsewhere (world : σ) (h : l.cell world = l.cell n.world) : Step n { n with world }

theorem stage_advance_of_ne {i j : ι} (h : j ≠ i) : (l.advance i n).stage j = n.stage j :=
  Function.update_of_ne h ..

/-- Who owns the cell after a step of negotiation `i`. The cell is won when nobody owns it, and only
its owner resolves it. -/
theorem Owned.advance (h : l.Owned n owner) (i : ι) : ∃ owner, l.Owned (l.advance i n) owner := by
  have hself : (l.advance i n).stage i = ((l.mechanism i).advance (n.stage i) n.world).1 :=
    Function.update_self ..
  have heffect := l.effect_advance i (n.stage i) n.world
  rw [← hself] at heffect
  cases heffect with
  | win hcell hstage' hcell' =>
    obtain rfl : owner = none := by simpa [h.cell] using hcell
    refine ⟨some i, iff_of_true hcell' rfl, fun j => ?_⟩
    by_cases hij : j = i
    · subst hij
      exact iff_of_true hstage' rfl
    · rw [stage_advance_of_ne hij, h.deciding]
      simp [Ne.symm hij]
  | resolve hstage hstage' hcell' =>
    obtain rfl := (h.deciding i).1 hstage
    refine ⟨none, iff_of_false hcell' (by simp), fun j => ?_⟩
    by_cases hij : j = i
    · subst hij
      exact iff_of_false hstage' (by simp)
    · rw [stage_advance_of_ne hij, h.deciding]
      simp [Ne.symm hij]
  | leave hstage hcell =>
    refine ⟨owner, (iff_of_eq (congrArg (· = _) hcell)).trans h.cell, fun j => ?_⟩
    by_cases hij : j = i
    · subst hij
      exact hstage.symm.trans (h.deciding j)
    · rw [stage_advance_of_ne hij, h.deciding]

theorem Owned.step (h : l.Owned n owner) (hstep : l.Step n n') : ∃ owner, l.Owned n' owner := by
  cases hstep with
  | advance i => exact h.advance i
  | elsewhere world hworld =>
    exact ⟨owner, (iff_of_eq (congrArg (· = _) hworld)).trans h.cell, h.deciding⟩

theorem exists_owned {s : σ} (hcell : l.cell s ≠ .initializing)
    (hrun : Relation.ReflTransGen l.Step ⟨s, fun _ => .fresh⟩ n) : ∃ owner, l.Owned n owner := by
  induction hrun with
  | refl => exact ⟨none, .fresh hcell⟩
  | tail _ hstep ih =>
    obtain ⟨owner, howned⟩ := ih
    exact howned.step hstep

/-- A negotiation that is over changes nothing any more. -/
theorem advance_of_done {i : ι} {ending : Ending Bool} (h : n.stage i = .done ending) :
    l.advance i n = n := by
  have hsame : Function.update n.stage i (.done ending) = n.stage := by
    rw [← h, Function.update_eq_self]
  rw [advance, h]
  show Negotiations.mk n.world (Function.update n.stage i (.done ending)) = n
  rw [hsame]

theorem advance_of_initializing {i : ι} (hfresh : n.stage i = .fresh)
    (hcell : l.cell n.world = .initializing) :
    (l.advance i n).stage i = .done (.returned true) ∧
      l.cell (l.advance i n).world = .initializing := by
  have hstep : (l.mechanism i).advance .fresh n.world =
      (.done (.returned true), l.setCell .initializing n.world) := by
    rw [AttachMechanism.advance_fresh]
    show (Negotiation.afterTransit (l.cell n.world), l.setCell _ n.world) = _
    rw [show (l.mechanism i).state n.world = .initializing from hcell, hcell]
    rfl
  rw [advance, hfresh, hstep]
  exact ⟨Function.update_self .., l.cell_setCell ..⟩

/-- Negotiations in any interleaving, with nobody else writing the cell: at most one is between its
winning transit and the resolution of the cell, the cell is `initializing` just while one is, and one
that finds it so consumes its signal, leaves the cell and is over. Each of them, run by itself, is
`AttachMechanism.consumes`. -/
theorem single_initializer (l : SharedListener ι σ) {s : σ} (hcell : l.cell s ≠ .initializing)
    {n : Negotiations ι σ} (hrun : Relation.ReflTransGen l.Step ⟨s, fun _ => .fresh⟩ n) :
    (∀ i j, (n.stage i).Deciding → (n.stage j).Deciding → i = j) ∧
      (l.cell n.world = .initializing ↔ ∃ i, (n.stage i).Deciding) ∧
      (∀ i, n.stage i = .fresh → l.cell n.world = .initializing →
        (l.advance i n).stage i = .done (.returned true) ∧
          l.cell (l.advance i n).world = .initializing ∧
          l.advance i (l.advance i n) = l.advance i n) ∧
      ∀ i s, (l.mechanism i).alone s =
        (some ((l.mechanism i).consumes s).1, ((l.mechanism i).consumes s).2) := by
  obtain ⟨owner, howned⟩ := exists_owned hcell hrun
  refine ⟨fun i j hi hj => ?_, ?_, fun i hfresh hinit => ?_,
    fun i s => (l.mechanism i).alone_eq_consumes s⟩
  · rw [howned.deciding] at hi hj
    exact Option.some.inj (hi.symm.trans hj)
  · rw [howned.cell, Option.isSome_iff_exists]
    exact exists_congr fun i => (howned.deciding i).symm
  · obtain ⟨hdone, hkept⟩ := advance_of_initializing hfresh hinit
    exact ⟨hdone, hkept, advance_of_done hdone⟩

/-- A cell and nothing else. Negotiation 2 finds a request, and no other does. -/
def bareCell : SharedListener ℕ AttachState where
  cell := id
  setCell c _ := c
  isInitTrigger i cell := if i = 2 then (.returned true, .initialized) else (.returned false, cell)
  checkSocketFile _ cell := (.returned false, cell)
  cell_setCell c _ := Eq.refl c
  cell_isInitTrigger i cell := by by_cases h : i = 2 <;> simp [h]
  cell_checkSocketFile _ _ := rfl

/-- Negotiation 0 wins and finds no request, negotiation 1 leaves its signal to it, the cell is reset
and negotiation 2 wins. -/
theorem single_initializer_twoWinners :
    let n := bareCell.advance 2 (bareCell.advance 0 (bareCell.advance 1 (bareCell.advance 0
      (bareCell.advance 0 ⟨.notInitialized, fun _ => .fresh⟩))))
    bareCell.cell AttachState.notInitialized ≠ .initializing ∧
      n.stage 2 = .asking ∧
      Relation.ReflTransGen bareCell.Step ⟨.notInitialized, fun _ => .fresh⟩ n ∧
      ∀ i j, (n.stage i).Deciding → (n.stage j).Deciding → i = j := by
  intro n
  have hcell : bareCell.cell AttachState.notInitialized ≠ .initializing := by decide
  have hrun : Relation.ReflTransGen bareCell.Step ⟨.notInitialized, fun _ => .fresh⟩ n :=
    .tail (.tail (.tail (.tail (.single (.advance 0)) (.advance 0)) (.advance 1)) (.advance 0))
      (.advance 2)
  exact ⟨hcell, by decide, hrun, (single_initializer bareCell hcell hrun).1⟩

end SharedListener

end HostServices
