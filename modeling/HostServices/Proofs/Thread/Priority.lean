import HostServices.Proofs.Op
import HostServices.Thread.Scheduler
import Mathlib.Data.Int.ConditionallyCompleteOrder
import Mathlib.Order.ConditionallyCompleteLattice.Basic
import Mathlib.Order.Fin.Basic

/-!
# Levels and host values

A table is accepted if and only if its ordinary levels are monotone, because neighbours in order are
enough (`ordered_iff`) and a monotone table follows the direction that its ends show
(`ordered_direction_iff`). The scan down a table stops at a level or above if and only if a host value
reaches the level (`le_scan_iff`), so levels and host values are a Galois connection, and a level comes
back as the highest ordinary one with its value (`isGreatest_fromNative_toNative`).
-/

namespace HostServices

namespace ThreadPriority

theorem level_injective : Function.Injective level := by
  rintro ⟨_, _, _⟩ ⟨_, _, _⟩ rfl
  rfl

instance : LinearOrder ThreadPriority :=
  LinearOrder.lift' level level_injective

theorem lowest_le (p : ThreadPriority) : lowest ≤ p := p.positive

theorem level_lt (p : ThreadPriority) : p.level < 12 := Nat.lt_succ_of_le p.le_critical

/-- The place of a level in a table. -/
def index (p : ThreadPriority) : Fin 12 := ⟨p.level, p.level_lt⟩

end ThreadPriority

namespace PriorityMap

variable {m : PriorityMap} {table : Vector Int 12} {ascending : Bool} {p q : ThreadPriority}
  {a b c native : Int}

/-! ## The order of a direction -/

@[simp] theorem inOrder_true : inOrder true a b = true ↔ a ≤ b := decide_eq_true_iff

@[simp] theorem inOrder_false : inOrder false a b = true ↔ b ≤ a := decide_eq_true_iff

theorem inOrder_refl (ascending : Bool) (a : Int) : inOrder ascending a a = true := by
  cases ascending <;> simp

theorem inOrder_trans (hab : inOrder ascending a b = true) (hbc : inOrder ascending b c = true) :
    inOrder ascending a c = true := by
  cases ascending <;> simp only [inOrder_true, inOrder_false] at * <;> omega

theorem inOrder_antisymm (hab : inOrder ascending a b = true) (hba : inOrder ascending b a = true) :
    a = b := by
  cases ascending <;> simp only [inOrder_true, inOrder_false] at * <;> omega

/-- A host value reaches a level if and only if the level's own value comes no later. -/
theorem exceeds_eq (m : PriorityMap) (p : ThreadPriority) (native : Int) :
    m.exceeds p native = !inOrder m.ascending (m.toNative p) native := by
  unfold exceeds inOrder
  split <;> simp only [← decide_not, Int.not_le]

/-! ## Accepted tables -/

/-- The ordinary levels of a table follow a direction. -/
def Ordered (table : Vector Int 12) (ascending : Bool) : Prop :=
  ∀ i ∈ Set.Icc (1 : Fin 12) 10, ∀ j ∈ Set.Icc (1 : Fin 12) 10, i ≤ j →
    inOrder ascending (table.get i) (table.get j) = true

theorem ordered_true : Ordered table true ↔ MonotoneOn table.get (Set.Icc 1 10) := by
  simp only [Ordered, inOrder_true]
  exact ⟨fun h i hi j hj => h i hi j hj, fun h i hi j hj => h hi hj⟩

theorem ordered_false : Ordered table false ↔ AntitoneOn table.get (Set.Icc 1 10) := by
  simp only [Ordered, inOrder_false]
  exact ⟨fun h i hi j hj => h i hi j hj, fun h i hi j hj => h hi hj⟩

theorem mem_ordinary {k : ℕ} (hk : k < 12) :
    (⟨k, hk⟩ : Fin 12) ∈ Set.Icc 1 10 ↔ 1 ≤ k ∧ k ≤ 10 := Iff.rfl

theorem firstDisorder_eq_none_iff : firstDisorder table ascending = none ↔
    ∀ k (h : 1 ≤ k ∧ k < 10),
      inOrder ascending (table.get ⟨k, by omega⟩) (table.get ⟨k + 1, by omega⟩) = true := by
  have hnext (k : ℕ) (h : k < 11) : table[k + 1]?.getD 0 = table.get ⟨k + 1, by omega⟩ := by
    rw [Vector.getElem?_eq_getElem (by omega)]
    rfl
  rw [firstDisorder, List.find?_eq_none]
  simp only [Bool.and_eq_true, decide_eq_true_iff, Bool.not_eq_true', not_and, Bool.not_eq_false]
  constructor
  · intro h k hk
    rw [← hnext k (by omega)]
    exact h ⟨k, by omega⟩ (List.mem_finRange _) hk
  · rintro h ⟨k, hk⟩ - hrange
    rw [hnext k (Nat.lt_trans hrange.2 (by decide))]
    exact h k hrange

/-- Neighbours in order are enough. -/
theorem ordered_iff : Ordered table ascending ↔ firstDisorder table ascending = none := by
  rw [firstDisorder_eq_none_iff]
  constructor
  · intro h k hk
    exact h _ ((mem_ordinary _).2 (by omega)) _ ((mem_ordinary _).2 (by omega)) (Nat.le_succ k)
  · rintro h ⟨i, hi⟩ hlow ⟨j, hj⟩ hhigh hij
    rw [mem_ordinary] at hlow hhigh
    replace hij : i ≤ j := hij
    induction j, hij using Nat.le_induction with
    | base => exact inOrder_refl ascending _
    | succ j hij ih =>
      exact inOrder_trans (ih (by omega) (by omega)) (h j (by omega))

/-- The direction that the ends of a table show. -/
def direction (table : Vector Int 12) : Bool :=
  decide (table.get 1 < table.get 10)

theorem ofTable_eq_ok_iff :
    ofTable table = .ok m ↔ Ordered table (direction table) ∧ m = ⟨table, direction table⟩ := by
  have hends : decide (table[1] < table[10]) = direction table := rfl
  simp only [ordered_iff, ofTable, hends]
  cases firstDisorder table (direction table) with
  | none =>
    simp only [Except.ok.injEq, true_and]
    exact eq_comm
  | some p => simp only [reduceCtorEq, false_and]

/-- A monotone table follows the direction that its ends show: where they show none, it is constant. -/
theorem ordered_direction_iff : Ordered table (direction table) ↔
    MonotoneOn table.get (Set.Icc 1 10) ∨ AntitoneOn table.get (Set.Icc 1 10) := by
  have hone : (1 : Fin 12) ∈ Set.Icc (1 : Fin 12) 10 := by decide
  have hten : (10 : Fin 12) ∈ Set.Icc (1 : Fin 12) 10 := by decide
  cases hends : direction table with
  | true =>
    have hlt : table.get 1 < table.get 10 := of_decide_eq_true hends
    rw [ordered_true]
    exact (or_iff_left fun hanti => absurd (hanti hone hten (by decide)) (Int.not_le.2 hlt)).symm
  | false =>
    have hle : table.get 10 ≤ table.get 1 := Int.not_lt.1 (of_decide_eq_false hends)
    rw [ordered_false]
    refine (or_iff_right_of_imp fun hmono i hi j hj _ => ?_).symm
    calc table.get j ≤ table.get 10 := hmono hj hten hj.2
      _ ≤ table.get 1 := hle
      _ ≤ table.get i := hmono hone hi hi.1

/-! ## The scan -/

theorem scan_le (m : PriorityMap) (native : Int) (n : ℕ) (hn : n ≤ 9) :
    (m.scan native n hn).level ≤ n + 1 := by
  induction n with
  | zero => exact Nat.le_refl 1
  | succ n ih =>
    rw [scan]
    split
    · exact (ih _).trans (Nat.le_succ _)
    · exact Nat.le_refl _

theorem fromNative_le (m : PriorityMap) (native : Int) : m.fromNative native ≤ .highest :=
  m.scan_le native 9 (Nat.le_refl 9)

section

variable (h : Ordered m.table m.ascending)
include h

theorem inOrder_toNative (hle : p ≤ q) (hhigh : q ≤ .highest) :
    inOrder m.ascending (m.toNative p) (m.toNative q) = true :=
  h p.index ⟨p.positive, hle.trans hhigh⟩ q.index ⟨q.positive, hhigh⟩ hle

/-- The scan stops at a level or above if and only if the host value reaches the level. -/
theorem le_scan_iff {n : ℕ} (hn : n ≤ 9) (hlow : .lowest < p) (hhigh : p.level ≤ n + 1) :
    p ≤ m.scan native n hn ↔ inOrder m.ascending (m.toNative p) native = true := by
  induction n with
  | zero => exact absurd hlow (Nat.not_lt.2 hhigh)
  | succ n ih =>
    rw [scan, exceeds_eq]
    split
    case isTrue hbeyond =>
      rw [Bool.not_eq_true'] at hbeyond
      rcases Nat.lt_or_eq_of_le hhigh with hbelow | htop
      · exact ih _ (Nat.le_of_lt_succ hbelow)
      · have hsame : p = ⟨n + 2, by omega, by omega⟩ := ThreadPriority.level_injective htop
        rw [← hsame] at hbeyond
        refine iff_of_false (fun hle => ?_) (Bool.eq_false_iff.1 hbeyond)
        exact Nat.not_succ_le_self _ (htop.ge.trans (Nat.le_trans hle (m.scan_le native n _)))
    case isFalse hreached =>
      rw [Bool.not_eq_true', Bool.not_eq_false] at hreached
      have hle : p ≤ ⟨n + 2, by omega, by omega⟩ := hhigh
      refine iff_of_true hle (inOrder_trans (inOrder_toNative h hle ?_) hreached)
      exact Nat.add_le_add_right hn 1

theorem le_fromNative_iff (hlow : .lowest < p) (hhigh : p ≤ .highest) :
    p ≤ m.fromNative native ↔ inOrder m.ascending (m.toNative p) native = true :=
  le_scan_iff h (Nat.le_refl 9) hlow hhigh

theorem fromNative_mono (hab : inOrder m.ascending a b = true) :
    m.fromNative a ≤ m.fromNative b := by
  rcases (ThreadPriority.lowest_le (m.fromNative a)).eq_or_lt with hlowest | hlow
  · exact hlowest ▸ ThreadPriority.lowest_le _
  · have hreached := (le_fromNative_iff h hlow (m.fromNative_le a)).1 le_rfl
    exact (le_fromNative_iff h hlow (m.fromNative_le a)).2 (inOrder_trans hreached hab)

theorem le_fromNative_toNative (hhigh : p ≤ .highest) : p ≤ m.fromNative (m.toNative p) := by
  rcases (ThreadPriority.lowest_le p).eq_or_lt with hlowest | hlow
  · exact hlowest ▸ ThreadPriority.lowest_le _
  · exact (le_fromNative_iff h hlow hhigh).2 (inOrder_refl _ _)

theorem toNative_fromNative_toNative (hhigh : p ≤ .highest) :
    m.toNative (m.fromNative (m.toNative p)) = m.toNative p := by
  have hle := le_fromNative_toNative h hhigh
  rcases hle.eq_or_lt with hsame | hlt
  · rw [← hsame]
  · have hlow := (ThreadPriority.lowest_le p).trans_lt hlt
    have hreached := (le_fromNative_iff h hlow (m.fromNative_le _)).1 le_rfl
    exact inOrder_antisymm hreached (inOrder_toNative h hle (m.fromNative_le _))

/-- A level comes back as the highest ordinary one with its value. -/
theorem isGreatest_fromNative_toNative (hhigh : p ≤ .highest) :
    IsGreatest {q | q ≤ .highest ∧ m.toNative q = m.toNative p} (m.fromNative (m.toNative p)) := by
  refine ⟨⟨m.fromNative_le _, toNative_fromNative_toNative h hhigh⟩, ?_⟩
  rintro q ⟨hq, hvalue⟩
  exact hvalue ▸ le_fromNative_toNative h hq

end

/-! ## Setting and asking -/

section

variable {π : Type} [ThreadHost π] {thread : ThreadRef} {s : π}

/-- Where the host takes a value for a thread, it reports that value when asked. -/
def Reports (s : π) (thread native : Int) : Prop :=
  let set := (ThreadHost.setPriority thread native : Op π _).run s
  set.result = .ok (.ok ()) →
    ((ThreadHost.getPriority thread : Op π _).run set.state).result = .ok (.ok native)

theorem setPriority_of_le (hhigh : p ≤ .highest)
    (hset : ((m.setPriority thread p).run s).result = .ok (.ok ())) :
    ((ThreadHost.setPriority thread.id (m.toNative p) : Op π _).run s).result = .ok (.ok ()) ∧
      ((m.setPriority thread p).run s).state =
        ((ThreadHost.setPriority thread.id (m.toNative p) : Op π _).run s).state := by
  have hallowed : (!allows thread.kind p) = false := by
    rw [allows, show decide (p.level ≤ 10) = true from decide_eq_true hhigh, Bool.true_or]
    rfl
  rw [setPriority, hallowed] at hset ⊢
  cases hhost : ((ThreadHost.setPriority thread.id (m.toNative p) : Op π _).run s).result with
  | error stop =>
    rw [if_neg Bool.false_ne_true, Op.result_bind_of_error hhost] at hset
    cases hset
  | ok taken =>
    rw [if_neg Bool.false_ne_true] at hset ⊢
    rw [Op.result_bind_of_ok hhost] at hset
    cases taken with
    | error e => cases hset
    | ok =>
      rw [Op.state_bind_of_ok hhost]
      exact ⟨rfl, rfl⟩

theorem getPriority_of_ok
    (hget : ((ThreadHost.getPriority thread.id : Op π _).run s).result = .ok (.ok native)) :
    ((m.getPriority thread).run s).result = .ok (.ok (m.fromNative native)) := by
  rw [getPriority, Op.result_bind_of_ok hget]
  rfl

end

/-- A table is accepted if and only if its ordinary levels are monotone, and is read in the direction
that its ends show. Then a host value gives a level above the lowest or more if and only if the value
of that level does not exceed it in the direction, so host values give levels in order, and a level
gives a value that gives the highest ordinary level with it. On a host that reports the value back, the
level of a thread has the same value as the one that was set. -/
theorem fromNative_galois (table : Vector Int 12) :
    ((∃ m, ofTable table = .ok m) ↔
      MonotoneOn table.get (Set.Icc 1 10) ∨ AntitoneOn table.get (Set.Icc 1 10)) ∧
    ∀ m, ofTable table = .ok m →
      m.table = table ∧ (m.ascending = true ↔ table.get 1 < table.get 10) ∧
      (∀ native p, .lowest < p → p ≤ .highest →
        (p ≤ m.fromNative native ↔ inOrder m.ascending (m.toNative p) native = true)) ∧
      (∀ a b, inOrder m.ascending a b = true → m.fromNative a ≤ m.fromNative b) ∧
      ∀ p, p ≤ .highest →
        IsGreatest {q | q ≤ .highest ∧ m.toNative q = m.toNative p} (m.fromNative (m.toNative p)) ∧
        ∀ {π : Type} [ThreadHost π] (thread : ThreadRef) (s : π),
          Reports s thread.id (m.toNative p) →
          ((m.setPriority thread p).run s).result = .ok (.ok ()) →
          ∃ q, ((m.getPriority thread).run ((m.setPriority thread p).run s).state).result =
              .ok (.ok q) ∧ m.toNative q = m.toNative p := by
  refine ⟨?_, fun m hm => ?_⟩
  · rw [← ordered_direction_iff]
    exact ⟨fun ⟨m, hm⟩ => (ofTable_eq_ok_iff.1 hm).1, fun h => ⟨_, ofTable_eq_ok_iff.2 ⟨h, rfl⟩⟩⟩
  · obtain ⟨h, rfl⟩ := ofTable_eq_ok_iff.1 hm
    refine ⟨rfl, decide_eq_true_iff, fun native p => le_fromNative_iff h, fun a b => fromNative_mono h,
      fun p hhigh => ⟨isGreatest_fromNative_toNative h hhigh, fun thread s hreports hset => ?_⟩⟩
    obtain ⟨htaken, hstate⟩ := setPriority_of_le hhigh hset
    rw [hstate]
    exact ⟨_, getPriority_of_ok (hreports htaken), toNative_fromNative_toNative h hhigh⟩

example : ofTable niceness.table = .ok niceness := by decide

/-- A table in which levels share values. -/
def shared : PriorityMap where
  table := #v[0, 10, 10, 5, 5, 5, 0, 0, 0, -5, -5, -5]
  ascending := false

/-- The third level, set for the only thread of a host, comes back as one with its value. -/
theorem fromNative_galois_shared :
    let third : ThreadPriority := ⟨3, by decide, by decide⟩
    let host : Scheduler := { own := 7 }
    let thread : ThreadRef := ⟨7, .java⟩
    ofTable shared.table = .ok shared ∧ .lowest < third ∧ third ≤ .highest ∧
      (third ≤ shared.fromNative 3 ↔ inOrder false 5 3 = true) ∧
      Reports host 7 5 ∧ ((shared.setPriority thread third).run host).result = .ok (.ok ()) ∧
      IsGreatest {q | q ≤ .highest ∧ shared.toNative q = 5} (shared.fromNative 5) ∧
      ∃ q, ((shared.getPriority thread).run ((shared.setPriority thread third).run host).state).result =
        .ok (.ok q) ∧ shared.toNative q = 5 := by
  intro third host thread
  have haccepted : ofTable shared.table = .ok shared := by decide
  have hreports : Reports host 7 5 := fun _ => rfl
  have hset : ((shared.setPriority thread third).run host).result = .ok (.ok ()) := rfl
  obtain ⟨-, -, hreach, -, hback⟩ := (fromNative_galois shared.table).2 shared haccepted
  have hlow : .lowest < third := by decide
  have hhigh : third ≤ .highest := by decide
  obtain ⟨hgreatest, hget⟩ := hback third hhigh
  exact ⟨haccepted, hlow, hhigh, hreach 3 third hlow hhigh, hreports, hset, hgreatest,
    hget thread host hreports hset⟩

end PriorityMap

end HostServices
