import HostServices.Proofs.Op
import HostServices.Signal.Pending

/-!
# Counting signals

What marking and taking do to each counter. A counter is a word, so it goes round when 2 ^ 32
deliveries of its signal are marked that nobody took (`toNat_markAll`); apart from that, what is
taken is what was marked.
-/

namespace HostServices.PendingSignals

variable {p : PendingSignals} {i j : Fin 66}

theorem slot?_val (i : Fin 66) : slot? i.val = some i := by
  have hi := i.isLt
  have hslot : (0 : Int) ≤ (i.val : Int) ∧ (i.val : Int) < 66 := by omega
  rw [slot?, dif_pos hslot]
  rfl

theorem get_set {n : ℕ} (v : Vector UInt32 n) (i j : Fin n) (x : UInt32) :
    (v.set i x).get j = if i = j then x else v.get j := by
  show (v.set i x)[j.val] = if i = j then x else v[j.val]
  rw [Vector.getElem_set]
  simp only [Fin.ext_iff]

theorem set_eq {n : ℕ} (v : Vector UInt32 n) (i : Fin n) (x : UInt32) :
    v.set i x = v.setIfInBounds i x := by
  ext k hk
  rw [Vector.getElem_set, Vector.getElem_setIfInBounds]

/-! ## The lowest pending signal -/

theorem lowest?_eq_some_iff :
    p.lowest? = some i ↔ p.counts.get i ≠ 0 ∧ ∀ j < i, p.counts.get j = 0 := by
  rw [lowest?, List.find?_eq_some_iff_getElem]
  constructor
  · rintro ⟨hi, k, hk, rfl, hlow⟩
    refine ⟨by simpa using hi, fun j hj => ?_⟩
    have hjk : j.val < k := by simpa using Fin.lt_def.1 hj
    simpa using hlow j.val hjk
  · rintro ⟨hi, hlow⟩
    refine ⟨by simpa using hi, i.val, by simp, by simp, fun j hj => ?_⟩
    have hj66 : j < 66 := Nat.lt_trans hj i.isLt
    simpa using hlow ⟨j, hj66⟩ hj

theorem lowest?_eq_none_iff : p.lowest? = none ↔ ∀ i, p.counts.get i = 0 := by
  simp [lowest?, List.find?_eq_none]

/-! ## Taking and marking -/

/-- The counters after one delivery of `i` was taken. -/
def withdraw (p : PendingSignals) (i : Fin 66) : PendingSignals :=
  ⟨p.counts.setIfInBounds i (p.counts.get i - 1)⟩

theorem take_of_lowest (h : p.lowest? = some i) : p.take = (some (i.val : Int), p.withdraw i) := by
  rw [take, h, withdraw, ← set_eq]

theorem get_withdraw (p : PendingSignals) (i j : Fin 66) :
    (p.withdraw i).counts.get j = if i = j then p.counts.get i - 1 else p.counts.get j := by
  rw [withdraw, ← set_eq]
  exact get_set ..

theorem take_of_none (h : p.lowest? = none) : p.take = (none, p) := by
  rw [take, h]

theorem toNat_withdraw (h : p.counts.get i ≠ 0) (j : Fin 66) :
    ((p.withdraw i).counts.get j).toNat + (if i = j then 1 else 0) = (p.counts.get j).toNat := by
  rw [get_withdraw]
  by_cases hij : i = j
  · subst hij
    have hpos : 1 ≤ (p.counts.get i).toNat :=
      Nat.one_le_iff_ne_zero.2 fun hzero => h (UInt32.toNat_inj.1 hzero)
    have hle : (1 : UInt32) ≤ p.counts.get i := UInt32.le_iff_toNat_le.2 hpos
    rw [if_pos rfl, if_pos rfl, UInt32.toNat_sub_of_le _ _ hle]
    exact Nat.sub_add_cancel hpos
  · rw [if_neg hij, if_neg hij, Nat.add_zero]

/-- Count some deliveries. -/
def markAll (p : PendingSignals) (sent : List (Fin 66)) : PendingSignals :=
  sent.foldl (fun p i => p.mark i.val) p

theorem markAll_append (p : PendingSignals) (first second : List (Fin 66)) :
    p.markAll (first ++ second) = (p.markAll first).markAll second :=
  List.foldl_append ..

theorem get_mark (p : PendingSignals) (i j : Fin 66) :
    (p.mark i.val).counts.get j = if i = j then p.counts.get i + 1 else p.counts.get j := by
  rw [mark, slot?_val]
  exact get_set ..

/-- A counter goes round at 2 ^ 32. -/
theorem toNat_markAll (p : PendingSignals) (sent : List (Fin 66)) (j : Fin 66) :
    ((p.markAll sent).counts.get j).toNat = ((p.counts.get j).toNat + sent.count j) % 2 ^ 32 := by
  induction sent generalizing p with
  | nil => exact (Nat.mod_eq_of_lt (p.counts.get j).toNat_lt).symm
  | cons i sent ih =>
    rw [show p.markAll (i :: sent) = (p.mark i.val).markAll sent from rfl, ih, get_mark,
      List.count_cons]
    by_cases hij : i = j
    · subst hij
      rw [if_pos rfl, UInt32.toNat_add]
      simp
      omega
    · simp [hij]

/-- A signal that is not among the deliveries is pending as often as before. -/
theorem get_markAll_of_notMem {sent : List (Fin 66)} (h : j ∉ sent) :
    (p.markAll sent).counts.get j = p.counts.get j := by
  rw [← UInt32.toNat_inj, toNat_markAll, List.count_eq_zero_of_not_mem h]
  exact Nat.mod_eq_of_lt (p.counts.get j).toNat_lt

end HostServices.PendingSignals
