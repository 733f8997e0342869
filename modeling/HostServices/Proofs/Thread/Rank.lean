import HostServices.Proofs.Thread.Priority

/-!
# The rank of levels

The check of a table ends at the highest ordinary level: the entry of the level above is neither
compared with its neighbour nor asked for the direction, so it plays no part in whether a table is
accepted (`ofTable_setCritical`). Ordinary levels keep their rank in every accepted table
(`inOrder_toNative`). All levels do if and only if that entry happens to go on in the direction of the
others (`rank_kept_iff`); a collector thread gets its value either way.
-/

namespace HostServices

namespace ThreadPriority

/-- Above the ordinary levels there is one. -/
theorem eq_critical_of_not_le {p : ThreadPriority} (h : ¬ p ≤ .highest) : p = .critical :=
  level_injective (Nat.le_antisymm p.le_critical (Nat.lt_of_not_le h))

end ThreadPriority

namespace PriorityMap

variable {m : PriorityMap} {table : Vector Int 12} {ascending : Bool} {p q : ThreadPriority}
  {value : Int}

/-! ## The entry that is not checked -/

/-- The table with another entry for the level above the ordinary ones. -/
def setCritical (table : Vector Int 12) (value : Int) : Vector Int 12 :=
  table.set 11 value

theorem get_setCritical_of_le {i : Fin 12} (hi : i ≤ 10) :
    (setCritical table value).get i = table.get i := by
  have hne : 11 ≠ i.val := Nat.ne_of_gt (Nat.lt_succ_of_le hi)
  exact Vector.getElem_set_ne _ i.isLt hne

theorem ordered_setCritical :
    Ordered (setCritical table value) ascending ↔ Ordered table ascending := by
  refine forall₂_congr fun i hi => forall₂_congr fun j hj => ?_
  rw [get_setCritical_of_le hi.2, get_setCritical_of_le hj.2]

theorem direction_setCritical : direction (setCritical table value) = direction table := by
  rw [direction, get_setCritical_of_le (by decide), get_setCritical_of_le (by decide), direction]

/-- Whatever the value of the level above is, the table is accepted and read in the same direction. -/
theorem ofTable_setCritical (h : ofTable table = .ok m) (value : Int) :
    ofTable (setCritical table value) = .ok ⟨setCritical table value, m.ascending⟩ := by
  obtain ⟨hordered, rfl⟩ := ofTable_eq_ok_iff.1 h
  rw [ofTable_eq_ok_iff, direction_setCritical]
  exact ⟨ordered_setCritical.2 hordered, rfl⟩

theorem toNative_setCritical_of_le (hhigh : p ≤ .highest) :
    toNative ⟨setCritical table value, ascending⟩ p = toNative ⟨table, ascending⟩ p :=
  get_setCritical_of_le (i := p.index) hhigh

theorem toNative_setCritical : toNative ⟨setCritical table value, ascending⟩ .critical = value :=
  Vector.getElem_set_self (by decide)

/-! ## All levels in order -/

/-- All levels keep their rank if the two highest do. -/
theorem inOrder_toNative_of_critical (h : Ordered m.table m.ascending)
    (hcritical : inOrder m.ascending (m.toNative .highest) (m.toNative .critical) = true)
    (hle : p ≤ q) : inOrder m.ascending (m.toNative p) (m.toNative q) = true := by
  by_cases hq : q ≤ .highest
  · exact inOrder_toNative h hle hq
  obtain rfl := ThreadPriority.eq_critical_of_not_le hq
  by_cases hp : p ≤ .highest
  · exact inOrder_trans (inOrder_toNative h hp le_rfl) hcritical
  · obtain rfl := ThreadPriority.eq_critical_of_not_le hp
    exact inOrder_refl _ _

/-! ## Levels that are set -/

theorem allows_iff {kind : ThreadKind} :
    allows kind p = true ↔ p ≤ .highest ∨ kind = .concurrentGc := by
  rw [allows, Bool.or_eq_true, Bool.and_eq_true, decide_eq_true_iff, beq_iff_eq, beq_iff_eq]
  constructor
  · exact Or.imp id And.right
  · rintro (hhigh | hkind)
    · exact .inl hhigh
    · by_cases hhigh : p ≤ .highest
      · exact .inl hhigh
      · exact .inr ⟨ThreadPriority.eq_critical_of_not_le hhigh, hkind⟩

/-- A level that is allowed is set with its value in the table, if the host takes that. -/
theorem setPriority_of_allows {π : Type} [ThreadHost π] {thread : ThreadRef} {s : π}
    (hallowed : allows thread.kind p = true)
    (htaken : ((ThreadHost.setPriority thread.id (m.toNative p) : Op π _).run s).result =
      .ok (.ok ())) :
    ((m.setPriority thread p).run s).result = .ok (.ok ()) ∧
      ((m.setPriority thread p).run s).state =
        ((ThreadHost.setPriority thread.id (m.toNative p) : Op π _).run s).state := by
  rw [setPriority, hallowed, if_neg (by decide), Op.result_bind_of_ok htaken,
    Op.state_bind_of_ok htaken]
  exact ⟨rfl, rfl⟩

/-- In an accepted table the ordinary levels keep their rank, and all levels do if and only if the
highest one does not come before the highest ordinary one. But a table with any value for that level is
accepted if one is, and a level that may be set for a thread gets the value of the table. -/
theorem rank_kept_iff (h : ofTable table = .ok m) :
    (∀ p q, p ≤ q → q ≤ .highest → inOrder m.ascending (m.toNative p) (m.toNative q) = true) ∧
    ((∀ p q, p ≤ q → inOrder m.ascending (m.toNative p) (m.toNative q) = true) ↔
      inOrder m.ascending (m.toNative .highest) (m.toNative .critical) = true) ∧
    (∀ value, ∃ m', ofTable (table.set 11 value) = .ok m' ∧ m'.ascending = m.ascending ∧
      m'.toNative .critical = value ∧ ∀ p, p ≤ .highest → m'.toNative p = m.toNative p) ∧
    ∀ {π : Type} [ThreadHost π] (thread : ThreadRef) (s : π) (p : ThreadPriority),
      p ≤ .highest ∨ thread.kind = .concurrentGc →
      ((ThreadHost.setPriority thread.id (m.toNative p) : Op π _).run s).result = .ok (.ok ()) →
      ((m.setPriority thread p).run s).result = .ok (.ok ()) ∧
        ((m.setPriority thread p).run s).state =
          ((ThreadHost.setPriority thread.id (m.toNative p) : Op π _).run s).state := by
  obtain ⟨hordered, hm⟩ := ofTable_eq_ok_iff.1 h
  subst hm
  refine ⟨fun p q => inOrder_toNative hordered, ⟨fun hall => ?_, fun hcritical p q => ?_⟩,
    fun value => ?_, fun thread s p hallowed htaken => ?_⟩
  · exact hall .highest .critical (by decide)
  · exact inOrder_toNative_of_critical hordered hcritical
  · exact ⟨_, ofTable_setCritical h value, rfl, toNative_setCritical, fun p hhigh =>
      toNative_setCritical_of_le hhigh⟩
  · exact setPriority_of_allows (allows_iff.2 hallowed) htaken

/-- With the niceness table a collector thread at the highest level is not behind the ordinary ones. -/
theorem rank_kept_iff_niceness :
    let host : Scheduler := { own := 7 }
    let collector : ThreadRef := ⟨7, .concurrentGc⟩
    ofTable niceness.table = .ok niceness ∧
      (∀ p q, p ≤ q → inOrder false (niceness.toNative p) (niceness.toNative q) = true) ∧
      ((ThreadHost.setPriority 7 (-5) : Op Scheduler _).run host).result = .ok (.ok ()) ∧
      ((niceness.setPriority collector .critical).run host).result = .ok (.ok ()) ∧
      ((niceness.setPriority collector .critical).run host).state.niceness = -5 := by
  intro host collector
  have haccepted : ofTable niceness.table = .ok niceness := by decide
  have htaken : ((ThreadHost.setPriority 7 (-5) : Op Scheduler _).run host).result = .ok (.ok ()) :=
    rfl
  obtain ⟨-, hrank, -, hset⟩ := rank_kept_iff haccepted
  obtain ⟨hresult, hstate⟩ := hset collector host .critical (.inr rfl) htaken
  exact ⟨haccepted, hrank.2 (by decide), htaken, hresult, congrArg Scheduler.niceness hstate⟩

/-- A table in order except for its last entry. -/
def demoting : PriorityMap where
  table := #v[0, 1, 2, 3, 4, 5, 6, 7, 8, 9, 10, 0]
  ascending := true

/-- The table is accepted, and a collector thread that is raised from the highest ordinary level to the
one above falls behind the lowest. -/
theorem critical_behind_lowest :
    let host : Scheduler := { own := 7 }
    let collector : ThreadRef := ⟨7, .concurrentGc⟩
    let atHighest := (demoting.setPriority collector .highest).run host
    let atCritical := (demoting.setPriority collector .critical).run atHighest.state
    ofTable demoting.table = .ok demoting ∧ .highest ≤ ThreadPriority.critical ∧
      inOrder true (demoting.toNative .highest) (demoting.toNative .critical) = false ∧
      atHighest.result = .ok (.ok ()) ∧ atHighest.state.niceness = 10 ∧
      atCritical.result = .ok (.ok ()) ∧ atCritical.state.niceness = 0 ∧
      demoting.toNative .lowest = 1 :=
  ⟨by decide, by decide, by decide, rfl, rfl, rfl, rfl, rfl⟩

end PriorityMap

end HostServices
