import HostServices.Proofs.Signal.Pending
import Mathlib.Algebra.BigOperators.Fin

/-!
# Deliveries and takes

The counters hold the deliveries that nobody took yet. A call sends at most one delivery and takes
at most one, and the counters change by these alone (`pending_perform`); so over a run each counter
is what was sent less what was taken (`pending_add_taken`). What is taken is the lowest pending
signal (`take_eq_some_iff`), and as many takes as deliveries are pending return all of them, in
order (`exists_drained`).
-/

namespace HostServices

/-- A call on the counters. -/
inductive SignalCall where
  | notify (sig : Int)
  | notifyFromHandler (sig : Int)
  | take

namespace SignalCall

/-- The signal that a call takes, and the counters after it. -/
def perform (p : PendingSignals) : SignalCall → Option Int × PendingSignals
  | notify sig => (none, ((PendingSignals.notify sig).run p).state)
  | notifyFromHandler sig => (none, p.mark sig)
  | take => p.take

/-- The delivery of a signal, unless it has no counter and is dropped. -/
def delivery? (sig : Int) : Option Int :=
  if 0 ≤ sig ∧ sig ≤ 65 then some sig else none

/-- The delivery that a call adds. -/
def sent? : SignalCall → Option Int
  | notify sig | notifyFromHandler sig => delivery? sig
  | take => none

end SignalCall

namespace PendingSignals

open SignalCall

variable {p : PendingSignals} {sig : Int}

/-- The counters after some calls. -/
def after (p : PendingSignals) (calls : List SignalCall) : PendingSignals :=
  calls.foldl (fun p call => (call.perform p).2) p

/-- The signals that some calls take, in order. -/
def taken (p : PendingSignals) : List SignalCall → List Int
  | [] => []
  | call :: calls => (call.perform p).1.toList ++ taken (call.perform p).2 calls

/-- The deliveries that some calls add. -/
def accepted (calls : List SignalCall) : List Int :=
  calls.filterMap sent?

/-- At every moment fewer than 2 ^ 32 deliveries of each signal wait to be taken. -/
def WithinRoom (calls : List SignalCall) : Prop :=
  ∀ seen, seen <+: calls → ∀ sig,
    (accepted seen).count sig < (empty.taken seen).count sig + 2 ^ 32

/-! ## Counters by signal -/

theorem slot?_eq_some_iff {i : Fin 66} : slot? sig = some i ↔ sig = i.val := by
  refine ⟨fun h => ?_, fun h => h ▸ slot?_val i⟩
  unfold slot? at h
  split at h
  · rename_i hsig
    obtain rfl := Option.some.inj h
    exact (Int.toNat_of_nonneg hsig.1).symm
  · cases h

theorem slot?_eq_none_iff : slot? sig = none ↔ ¬(0 ≤ sig ∧ sig ≤ 65) := by
  rw [slot?, dite_eq_right_iff]
  refine ⟨fun h hsig => ?_, fun h hsig => absurd ⟨hsig.1, by omega⟩ h⟩
  exact absurd (h ⟨hsig.1, by omega⟩) (Option.some_ne_none _)

/-- A signal is one of the counters' or has none. -/
theorem counter_cases (sig : Int) : (∃ i : Fin 66, sig = i.val) ∨ slot? sig = none := by
  cases h : slot? sig with
  | none => exact .inr rfl
  | some i => exact .inl ⟨i, slot?_eq_some_iff.1 h⟩

@[simp] theorem pending_val (p : PendingSignals) (i : Fin 66) :
    p.pending i.val = p.counts.get i := by
  rw [pending, slot?_val]
  rfl

theorem pending_of_no_slot (p : PendingSignals) (h : slot? sig = none) : p.pending sig = 0 := by
  rw [pending, h]
  rfl

theorem pending_empty (sig : Int) : empty.pending sig = 0 := by
  obtain ⟨i, rfl⟩ | hsig := counter_cases sig
  · rw [pending_val]
    exact Vector.getElem_replicate ..
  · exact pending_of_no_slot _ hsig

theorem mark_of_no_slot (p : PendingSignals) (h : slot? sig = none) : p.mark sig = p := by
  rw [mark, h]

theorem state_notify (p : PendingSignals) (sig : Int) :
    ((notify sig).run p).state = p.mark sig := by
  rw [notify]
  cases h : slot? sig with
  | none => exact (mark_of_no_slot p h).symm
  | some i => rfl

theorem count_val (i j : Fin 66) :
    [(i.val : Int)].count (j.val : Int) = if i = j then 1 else 0 := by
  simp [List.count_singleton, Fin.ext_iff]

theorem count_val_of_no_slot (i : Fin 66) (h : slot? sig = none) :
    [(i.val : Int)].count sig = 0 := by
  refine List.count_eq_zero.2 fun hmem => ?_
  obtain rfl := List.mem_singleton.1 hmem
  rw [slot?_val] at h
  cases h

/-! ## Sending -/

theorem delivery?_val (i : Fin 66) : delivery? i.val = some (i.val : Int) := by
  have hi := i.isLt
  exact if_pos ⟨by omega, by omega⟩

theorem delivery?_of_no_slot (h : slot? sig = none) : delivery? sig = none :=
  if_neg (slot?_eq_none_iff.1 h)

theorem pending_mark (p : PendingSignals) (sent sig : Int)
    (hroom : (p.pending sig).toNat + (delivery? sent).toList.count sig < 2 ^ 32) :
    ((p.mark sent).pending sig).toNat =
      (p.pending sig).toNat + (delivery? sent).toList.count sig := by
  obtain ⟨i, rfl⟩ | hsent := counter_cases sent
  · rw [delivery?_val, Option.toList_some] at hroom ⊢
    obtain ⟨j, rfl⟩ | hsig := counter_cases sig
    · rw [count_val, pending_val] at hroom ⊢
      rw [pending_val, get_mark]
      by_cases hij : i = j
      · subst hij
        rw [if_pos rfl] at hroom ⊢
        rw [if_pos rfl, UInt32.toNat_add]
        exact Nat.mod_eq_of_lt hroom
      · rw [if_neg hij, if_neg hij, Nat.add_zero]
    · rw [pending_of_no_slot _ hsig, pending_of_no_slot _ hsig, count_val_of_no_slot i hsig]
      rfl
  · rw [mark_of_no_slot p hsent, delivery?_of_no_slot hsent]
    rfl

/-! ## Taking -/

theorem take_eq_some_iff :
    p.take.1 = some sig ↔ p.pending sig ≠ 0 ∧ ∀ low < sig, p.pending low = 0 := by
  constructor
  · intro htake
    cases hlow : p.lowest? with
    | none => rw [take_of_none hlow] at htake; cases htake
    | some i =>
      rw [take_of_lowest hlow] at htake
      obtain rfl := Option.some.inj htake
      obtain ⟨hne, hbelow⟩ := lowest?_eq_some_iff.1 hlow
      refine ⟨by rwa [pending_val], fun low hlt => ?_⟩
      obtain ⟨j, rfl⟩ | hno := counter_cases low
      · rw [pending_val]
        exact hbelow j (by omega)
      · exact pending_of_no_slot p hno
  · rintro ⟨hne, hbelow⟩
    obtain ⟨i, rfl⟩ | hno := counter_cases sig
    · rw [pending_val] at hne
      have hlow : p.lowest? = some i := lowest?_eq_some_iff.2 ⟨hne, fun j hj => by
        rw [← pending_val]
        exact hbelow j.val (by omega)⟩
      rw [take_of_lowest hlow]
    · exact absurd (pending_of_no_slot p hno) hne

theorem le_of_pending {low : Int} (htake : p.take.1 = some low) (hsig : p.pending sig ≠ 0) :
    low ≤ sig := by
  by_contra hlt
  exact hsig ((take_eq_some_iff.1 htake).2 sig (by omega))

theorem take_eq_none_iff : p.take.1 = none ↔ ∀ sig, p.pending sig = 0 := by
  constructor
  · intro htake sig
    obtain ⟨i, rfl⟩ | hno := counter_cases sig
    · rw [pending_val]
      cases hlow : p.lowest? with
      | none => exact lowest?_eq_none_iff.1 hlow i
      | some i => rw [take_of_lowest hlow] at htake; cases htake
    · exact pending_of_no_slot p hno
  · intro hzero
    have hlow : p.lowest? = none :=
      lowest?_eq_none_iff.2 fun i => by rw [← pending_val]; exact hzero i.val
    rw [take_of_none hlow]

/-- Taking counts one delivery less of the signal that is taken, and of no other. -/
theorem pending_take (p : PendingSignals) (sig : Int) :
    (p.take.2.pending sig).toNat + p.take.1.toList.count sig = (p.pending sig).toNat := by
  cases hlow : p.lowest? with
  | none => rw [take_of_none hlow]; rfl
  | some i =>
    rw [take_of_lowest hlow]
    show ((p.withdraw i).pending sig).toNat + [(i.val : Int)].count sig = _
    obtain ⟨j, rfl⟩ | hsig := counter_cases sig
    · rw [count_val, pending_val, pending_val]
      exact toNat_withdraw (lowest?_eq_some_iff.1 hlow).1 j
    · rw [pending_of_no_slot _ hsig, pending_of_no_slot _ hsig, count_val_of_no_slot i hsig]
      rfl

/-! ## Runs of calls -/

/-- A call changes each counter by the delivery it sends and the one it takes. -/
theorem pending_perform (p : PendingSignals) (call : SignalCall) (sig : Int)
    (hroom : (p.pending sig).toNat + call.sent?.toList.count sig <
      (call.perform p).1.toList.count sig + 2 ^ 32) :
    ((call.perform p).2.pending sig).toNat + (call.perform p).1.toList.count sig =
      (p.pending sig).toNat + call.sent?.toList.count sig := by
  cases call with
  | notify sent =>
    have hroom' : (p.pending sig).toNat + (delivery? sent).toList.count sig < 2 ^ 32 := by
      simpa [sent?, perform] using hroom
    show (((notify sent).run p).state.pending sig).toNat + 0 = _
    rw [state_notify, Nat.add_zero]
    exact pending_mark p sent sig hroom'
  | notifyFromHandler sent =>
    have hroom' : (p.pending sig).toNat + (delivery? sent).toList.count sig < 2 ^ 32 := by
      simpa [sent?, perform] using hroom
    exact pending_mark p sent sig hroom'
  | take => exact pending_take p sig

theorem after_append (p : PendingSignals) (first second : List SignalCall) :
    p.after (first ++ second) = (p.after first).after second :=
  List.foldl_append ..

theorem taken_append (p : PendingSignals) (first second : List SignalCall) :
    p.taken (first ++ second) = p.taken first ++ (p.after first).taken second := by
  induction first generalizing p with
  | nil => rfl
  | cons call first ih =>
    rw [List.cons_append, taken, ih, taken, List.append_assoc]
    rfl

theorem accepted_append (first second : List SignalCall) :
    accepted (first ++ second) = accepted first ++ accepted second :=
  List.filterMap_append ..

theorem taken_singleton (p : PendingSignals) (call : SignalCall) :
    p.taken [call] = (call.perform p).1.toList :=
  List.append_nil _

theorem accepted_singleton (call : SignalCall) : accepted [call] = call.sent?.toList := by
  cases h : call.sent? <;> simp [accepted, h]

theorem WithinRoom.of_append {first second : List SignalCall}
    (h : WithinRoom (first ++ second)) : WithinRoom first :=
  fun seen hseen => h seen (hseen.trans (List.prefix_append ..))

/-- While there is room, each counter is what was sent less what was taken. -/
theorem pending_add_taken {calls : List SignalCall} (hroom : WithinRoom calls) (sig : Int) :
    ((empty.after calls).pending sig).toNat + (empty.taken calls).count sig =
      (accepted calls).count sig := by
  induction calls using List.reverseRecOn with
  | nil =>
    show (empty.pending sig).toNat + 0 = 0
    rw [pending_empty]
    rfl
  | append_singleton calls call ih =>
    have hbefore := ih hroom.of_append
    have hlast := hroom _ List.prefix_rfl sig
    rw [accepted_append, taken_append, accepted_singleton, taken_singleton, List.count_append,
      List.count_append] at hlast ⊢
    have hstep := pending_perform (empty.after calls) call sig (by omega)
    rw [after_append]
    show ((call.perform (empty.after calls)).2.pending sig).toNat + _ = _
    omega

/-! ## Taking everything -/

/-- How many deliveries are pending. -/
def outstanding (p : PendingSignals) : ℕ :=
  ∑ i, (p.counts.get i).toNat

theorem outstanding_withdraw {i : Fin 66} (h : p.counts.get i ≠ 0) :
    (p.withdraw i).outstanding + 1 = p.outstanding := by
  have hone : ∑ j : Fin 66, (if i = j then 1 else 0) = 1 := by simp
  rw [outstanding, outstanding, ← hone, ← Finset.sum_add_distrib]
  exact Finset.sum_congr rfl fun j _ => toNat_withdraw h j

/-- As many takes as deliveries are pending return each of them, the lowest first, and leave
nothing. -/
theorem exists_drained (p : PendingSignals) : ∃ drained : List Int,
    p.taken (List.replicate drained.length .take) = drained ∧
      drained.Pairwise (· ≤ ·) ∧
      (∀ sig, drained.count sig = (p.pending sig).toNat) ∧
      (p.after (List.replicate drained.length .take)).take.1 = none := by
  induction hn : p.outstanding using Nat.strong_induction_on generalizing p with
  | _ n ih =>
    subst hn
    cases hlow : p.lowest? with
    | none =>
      have htake : p.take.1 = none := by rw [take_of_none hlow]
      refine ⟨[], rfl, .nil, fun sig => ?_, htake⟩
      rw [take_eq_none_iff.1 htake sig]
      rfl
    | some i =>
      have htake := take_of_lowest hlow
      have hless := outstanding_withdraw (lowest?_eq_some_iff.1 hlow).1
      obtain ⟨rest, htaken, hsorted, hcount, hnone⟩ := ih _ (by omega) (p.withdraw i) rfl
      have hpending (sig : Int) : ((i.val : Int) :: rest).count sig = (p.pending sig).toNat := by
        have hstep := pending_take p sig
        rw [htake] at hstep
        rw [← hstep, ← hcount, List.count_cons]
        exact congrArg (rest.count sig + ·) List.count_singleton.symm
      refine ⟨i.val :: rest, ?_, ?_, hpending, ?_⟩
      · show p.take.1.toList ++ p.take.2.taken (List.replicate rest.length .take) = _
        rw [htake, htaken]
        rfl
      · refine List.pairwise_cons.2 ⟨fun sig hsig => ?_, hsorted⟩
        have hpos : 0 < ((i.val : Int) :: rest).count sig :=
          List.count_pos_iff.2 (List.mem_cons_of_mem _ hsig)
        rw [hpending] at hpos
        refine le_of_pending (congrArg Prod.fst htake) fun hzero => ?_
        rw [hzero] at hpos
        exact absurd hpos (by decide)
      · show (p.take.2.after (List.replicate rest.length .take)).take.1 = none
        rw [htake]
        exact hnone

/-- After any calls within room: each counter is what was accepted less what was taken; a number
without a counter changes nothing; a take fails just when nothing is pending, and otherwise takes
the lowest pending signal and counts only that one less. So as many takes as deliveries are pending
return each delivery once, and the exit signal is taken after all others. -/
theorem deliveries_taken (calls : List SignalCall) (hroom : WithinRoom calls) :
    let p := empty.after calls
    (∀ sig, (p.pending sig).toNat + (empty.taken calls).count sig = (accepted calls).count sig) ∧
    (∀ sig, ¬(0 ≤ sig ∧ sig ≤ 65) →
      p.pending sig = 0 ∧ p.mark sig = p ∧ ((notify sig).run p).state = p) ∧
    (p.take.1 = none ↔ ∀ sig, p.pending sig = 0) ∧
    (∀ sig, p.take.1 = some sig ↔ p.pending sig ≠ 0 ∧ ∀ low < sig, p.pending low = 0) ∧
    (∀ sig, (p.take.2.pending sig).toNat =
      (p.pending sig).toNat - if p.take.1 = some sig then 1 else 0) ∧
    (∃ drained : List Int,
      p.taken (List.replicate drained.length .take) = drained ∧
      drained.Pairwise (· ≤ ·) ∧
      (∀ sig, (empty.taken calls ++ drained).count sig = (accepted calls).count sig) ∧
      (p.after (List.replicate drained.length .take)).take.1 = none) ∧
    (p.take.1 = some 65 → ∀ sig ≠ 65, p.pending sig = 0) := by
  intro p
  have hcounted : ∀ sig, (p.pending sig).toNat + (empty.taken calls).count sig =
      (accepted calls).count sig := pending_add_taken hroom
  refine ⟨hcounted, fun sig hsig => ?_, take_eq_none_iff, fun sig => take_eq_some_iff,
    fun sig => ?_, ?_, fun htake sig hsig => ?_⟩
  · have hno := slot?_eq_none_iff.2 hsig
    rw [state_notify]
    exact ⟨pending_of_no_slot p hno, mark_of_no_slot p hno, mark_of_no_slot p hno⟩
  · rw [← pending_take p sig]
    cases p.take.1 <;> simp [List.count_singleton]
  · obtain ⟨drained, htaken, hsorted, hcount, hnone⟩ := exists_drained p
    refine ⟨drained, htaken, hsorted, fun sig => ?_, hnone⟩
    rw [List.count_append, hcount, Nat.add_comm]
    exact hcounted sig
  · by_contra hne
    have hle := le_of_pending htake hne
    exact hne (pending_of_no_slot p (slot?_eq_none_iff.2 fun hrange => absurd hrange.2 (by omega)))

/-- Fewer than 2 ^ 32 calls are always within room. -/
theorem withinRoom_of_length {calls : List SignalCall} (h : calls.length < 2 ^ 32) :
    WithinRoom calls := by
  intro seen hseen sig
  have hcount : (accepted seen).count sig ≤ calls.length :=
    List.count_le_length.trans ((List.length_filterMap_le ..).trans hseen.length_le)
  omega

/-- The exit signal, a hangup, a number that is ignored and another hangup, one of them taken. -/
def hangups : List SignalCall :=
  [.notify 65, .notifyFromHandler 1, .notify (-1), .notify 1, .take]

theorem deliveries_taken_hangups :
    WithinRoom hangups ∧ ∀ sig, ((empty.after hangups).pending sig).toNat +
      (empty.taken hangups).count sig = (accepted hangups).count sig :=
  ⟨withinRoom_of_length (by decide),
    (deliveries_taken hangups (withinRoom_of_length (by decide))).1⟩

end PendingSignals

end HostServices
