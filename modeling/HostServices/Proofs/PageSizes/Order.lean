import HostServices.Proofs.PageSizes
import Mathlib.Data.Nat.Find
import Mathlib.Order.Bounds.Basic

/-!
# Page sizes in order

The highest and the lowest bit of a mask are the greatest and the least size in it, so a query for an
extreme size answers with that one, or with zero if there is none (`OrZero`). Asking for one neighbour
after the other is a walk (`Walk`), which meets every member once and in its order (`Walk.lists`). Both
walks end: downwards each size is smaller than the one before, and upwards at least twice as large, so
that the steps allowed to `members` are enough (`walk_members`).
-/

namespace HostServices.PageSizes

variable {p : PageSizes} {size t : UInt64}

/-! ## Extreme sizes -/

/-- A size that is extreme among some sizes, or zero if there are none. -/
def OrZero (IsExtreme : Set UInt64 → UInt64 → Prop) (sizes : Set UInt64) (size : UInt64) : Prop :=
  IsExtreme sizes size ∨ sizes = ∅ ∧ size = 0

theorem OrZero.imp {E F : Set UInt64 → UInt64 → Prop} {sizes : Set UInt64}
    (h : OrZero E sizes size) (himp : E sizes size → F sizes size) : OrZero F sizes size :=
  Or.imp_left himp h

theorem isGreatest_highest {mask : UInt64} (h : mask ≠ 0) :
    IsGreatest {t | t ∈ mk mask} (highest mask) := by
  have hne := Word.toNat_ne_zero h
  have hhigh : (highest mask).toNat = 2 ^ mask.toNat.log2 := by
    rw [toNat_highest h, Nat.one_shiftLeft]
  refine ⟨⟨_, hhigh, Nat.testBit_log2 hne⟩, ?_⟩
  rintro t ⟨k, hk, hbit⟩
  rw [UInt64.le_iff_toNat_le, hk, hhigh]
  exact Nat.pow_le_pow_right Nat.two_pos ((Nat.le_log2 hne).2 (Nat.ge_two_pow_of_testBit hbit))

theorem isLeast_lowest {mask : UInt64} (h : mask ≠ 0) : IsLeast {t | t ∈ mk mask} (lowest mask) := by
  have hbits := Nat.exists_testBit_of_ne_zero (Word.toNat_ne_zero h)
  have hlow : (lowest mask).toNat = 2 ^ Nat.find hbits := by
    refine Nat.eq_of_testBit_eq fun k => Bool.eq_iff_iff.2 ?_
    rw [lowest, Word.testBit_and_neg, Nat.testBit_two_pow, decide_eq_true_iff, Nat.find_eq_iff]
    simp only [Bool.not_eq_true]
  refine ⟨⟨_, hlow, Nat.find_spec hbits⟩, ?_⟩
  rintro t ⟨k, hk, hbit⟩
  rw [UInt64.le_iff_toNat_le, hlow, hk]
  exact Nat.pow_le_pow_right Nat.two_pos (Nat.find_min' hbits hbit)

/-- The extreme bit of a mask, where zero stands for that of no bits. -/
theorem OrZero.of_mask {IsExtreme : Set UInt64 → UInt64 → Prop} {bit : UInt64 → UInt64}
    (hextreme : ∀ {mask}, mask ≠ 0 → IsExtreme {t | t ∈ mk mask} (bit mask)) (hzero : bit 0 = 0)
    (mask : UInt64) : OrZero IsExtreme {t | t ∈ mk mask} (bit mask) := by
  by_cases h : mask = 0
  · subst h
    exact .inr ⟨Set.eq_empty_iff_forall_notMem.2 fun _ => not_mem_zero, hzero⟩
  · exact .inl (hextreme h)

/-! ## Neighbours -/

theorem orZero_nextSmaller (p : PageSizes) (h : Word.isPowerOfTwo size = true) :
    OrZero IsGreatest {t | t ∈ p ∧ t < size} (p.nextSmaller size) := by
  have hbelow (t : UInt64) : t ∈ mk (p.mask &&& (size - 1)) ↔ t ∈ p ∧ t < size := by
    rw [mem_and]
    exact and_congr_right fun ht => mem_sub_one h (isPowerOfTwo_of_mem ht)
  have hbit := OrZero.of_mask isGreatest_highest rfl (p.mask &&& (size - 1))
  simp only [hbelow] at hbit
  exact hbit

theorem orZero_nextLarger (p : PageSizes) (h : Word.isPowerOfTwo size = true) :
    OrZero IsLeast {t | t ∈ p ∧ size < t} (p.nextLarger size) := by
  have habove (t : UInt64) :
      t ∈ mk (p.mask &&& ~~~(size ||| (size - 1))) ↔ t ∈ p ∧ size < t := by
    rw [mem_and]
    refine and_congr_right fun ht => ?_
    have hpower := isPowerOfTwo_of_mem ht
    rw [mem_not hpower, mem_or, mem_mk_self h, mem_sub_one h hpower, not_or, ← ne_eq, ne_comm,
      UInt64.not_lt, and_comm]
    exact UInt64.lt_iff_le_and_ne.symm
  have hbit := OrZero.of_mask isLeast_lowest rfl (p.mask &&& ~~~(size ||| (size - 1)))
  simp only [habove] at hbit
  exact hbit

/-! ## The largest and the smallest -/

/-- No power of two is above the topmost bit. -/
theorem le_topBit (h : t ∈ p) : t ≤ 0x8000000000000000 := by
  obtain ⟨k, hk, hbit⟩ := h
  rw [UInt64.le_iff_toNat_le, hk]
  exact Nat.pow_le_pow_right Nat.two_pos (Nat.le_of_lt_succ (Word.lt_of_testBit hbit))

theorem one_le (h : t ∈ p) : 1 ≤ t :=
  UInt64.le_iff_toNat_le.2 (Word.toNat_pos_of_isPowerOfTwo (isPowerOfTwo_of_mem h))

/-- A size at an end of all powers of two is asked for first, and its neighbour if it is no member. -/
theorem OrZero.of_contains {IsExtreme : Set UInt64 → UInt64 → Prop} {last next : UInt64}
    {Within : UInt64 → Prop} (hpower : Word.isPowerOfTwo last = true)
    (hlast : last ∈ p → IsExtreme {t | t ∈ p} last) (hwithin : ∀ t ∈ p, t ≠ last → Within t)
    (hnext : OrZero IsExtreme {t | t ∈ p ∧ Within t} next) :
    OrZero IsExtreme {t | t ∈ p} (if p.contains last then last else next) := by
  split
  case isTrue h => exact .inl (hlast ((contains_iff_mem hpower).1 h))
  case isFalse h =>
    have hall (t : UInt64) : t ∈ p ∧ Within t ↔ t ∈ p := by
      refine and_iff_left_of_imp fun ht => hwithin t ht ?_
      rintro rfl
      exact h ((contains_iff_mem hpower).2 ht)
    simp only [hall] at hnext
    exact hnext

theorem orZero_largest (p : PageSizes) : OrZero IsGreatest {t | t ∈ p} p.largest := by
  have htop : Word.isPowerOfTwo 0x8000000000000000 = true := by decide
  exact OrZero.of_contains htop (fun hmem => ⟨hmem, fun _ => le_topBit⟩)
    (fun t ht hne => UInt64.lt_iff_le_and_ne.2 ⟨le_topBit ht, hne⟩) (orZero_nextSmaller p htop)

theorem orZero_smallest (p : PageSizes) : OrZero IsLeast {t | t ∈ p} p.smallest := by
  have hone : Word.isPowerOfTwo 1 = true := by decide
  exact OrZero.of_contains hone (fun hmem => ⟨hmem, fun _ => one_le⟩)
    (fun t ht hne => UInt64.lt_iff_le_and_ne.2 ⟨one_le ht, hne.symm⟩) (orZero_nextLarger p hone)

/-! ## Walks -/

/-- The sizes met from one on, where `next` leads from each to the following one, and zero ends the
walk. -/
inductive Walk (next : UInt64 → UInt64) : UInt64 → List UInt64 → Prop
  | done : Walk next 0 []
  | step {size : UInt64} {rest : List UInt64} :
      size ≠ 0 → Walk next (next size) rest → Walk next size (size :: rest)

/-- All others among some sizes come after one of them. -/
def IsFirst (before : UInt64 → UInt64 → Prop) (sizes : Set UInt64) (size : UInt64) : Prop :=
  size ∈ sizes ∧ ∀ t ∈ sizes, t = size ∨ before size t

theorem isFirst_of_isLeast {sizes : Set UInt64} (h : IsLeast sizes size) :
    IsFirst (· < ·) sizes size :=
  ⟨h.1, fun _ ht => (UInt64.lt_or_eq_of_le (h.2 ht)).symm.imp_left Eq.symm⟩

theorem isFirst_of_isGreatest {sizes : Set UInt64} (h : IsGreatest sizes size) :
    IsFirst (· > ·) sizes size :=
  ⟨h.1, fun _ ht => (UInt64.lt_or_eq_of_le (h.2 ht)).symm⟩

/-- `next` leads each member to the first one after it in an order, and the last one to zero. -/
def Leads (p : PageSizes) (before : UInt64 → UInt64 → Prop) (next : UInt64 → UInt64) : Prop :=
  ∀ size ∈ p, OrZero (IsFirst before) {t | t ∈ p ∧ before size t} (next size)

section

variable {before : UInt64 → UInt64 → Prop} {next : UInt64 → UInt64} {walk : List UInt64}

theorem OrZero.zero_or_mem (h : OrZero (IsFirst before) {t | t ∈ p} size) :
    size = 0 ∨ size ∈ p :=
  h.symm.imp And.right And.left

theorem Leads.zero_or_mem (h : p.Leads before next) (hsize : size ∈ p) :
    next size = 0 ∨ next size ∈ p :=
  (h size hsize).symm.imp And.right fun hfirst => hfirst.1.1

/-- What comes after a member is the following one and what comes after that. -/
theorem Leads.before_iff (h : p.Leads before next)
    (htrans : ∀ {a b c}, before a b → before b c → before a c) (hsize : size ∈ p) :
    t ∈ p ∧ before size t ↔ next size ≠ 0 ∧ t ∈ p ∧ (t = next size ∨ before (next size) t) := by
  rcases h size hsize with ⟨⟨hin, hbefore⟩, hafter⟩ | ⟨hlast, hzero⟩
  · constructor
    · rintro ⟨ht, hbehind⟩
      exact ⟨ne_zero_of_mem hin, ht, hafter t ⟨ht, hbehind⟩⟩
    · rintro ⟨-, ht, rfl | hbehind⟩
      · exact ⟨ht, hbefore⟩
      · exact ⟨ht, htrans hbefore hbehind⟩
  · exact iff_of_false (Set.eq_empty_iff_forall_notMem.1 hlast t) fun hbehind => hbehind.1 hzero

/-- A walk meets the member that it starts from and all that come after it. -/
theorem Walk.mem_iff (h : Walk next size walk) (hnext : p.Leads before next)
    (htrans : ∀ {a b c}, before a b → before b c → before a c) (hsize : size = 0 ∨ size ∈ p) :
    t ∈ walk ↔ size ≠ 0 ∧ t ∈ p ∧ (t = size ∨ before size t) := by
  induction h with
  | done => simp only [List.not_mem_nil, ne_eq, not_true, false_and]
  | @step size rest hne _ ih =>
    have hmem := hsize.resolve_left hne
    rw [List.mem_cons, ih (hnext.zero_or_mem hmem), ← hnext.before_iff htrans hmem]
    constructor
    · rintro (rfl | ⟨ht, hbehind⟩)
      · exact ⟨hne, hmem, .inl rfl⟩
      · exact ⟨hne, ht, .inr hbehind⟩
    · rintro ⟨-, ht, heq | hbehind⟩
      · exact .inl heq
      · exact .inr ⟨ht, hbehind⟩

/-- A walk goes in the order of `next`. -/
theorem Walk.pairwise (h : Walk next size walk) (hnext : p.Leads before next)
    (htrans : ∀ {a b c}, before a b → before b c → before a c) (hsize : size = 0 ∨ size ∈ p) :
    walk.Pairwise before := by
  induction h with
  | done => exact .nil
  | @step size rest hne hrest ih =>
    have hmem := hsize.resolve_left hne
    have hnextMem := hnext.zero_or_mem hmem
    refine .cons (fun t ht => ?_) (ih hnextMem)
    have hbehind := (hrest.mem_iff hnext htrans hnextMem).1 ht
    exact ((hnext.before_iff htrans hmem).2 hbehind).2

/-- A walk from the first member lists all members in order. -/
theorem Walk.lists (h : Walk next size walk) (hnext : p.Leads before next)
    (htrans : ∀ {a b c}, before a b → before b c → before a c)
    (hfirst : OrZero (IsFirst before) {t | t ∈ p} size) :
    walk.Pairwise before ∧ ∀ t, t ∈ walk ↔ t ∈ p := by
  refine ⟨h.pairwise hnext htrans hfirst.zero_or_mem, fun t => ?_⟩
  rw [h.mem_iff hnext htrans hfirst.zero_or_mem]
  rcases hfirst with ⟨hmem, hbefore⟩ | ⟨hnone, hzero⟩
  · exact ⟨fun hmet => hmet.2.1, fun ht => ⟨ne_zero_of_mem hmem, ht, hbefore t ht⟩⟩
  · exact iff_of_false (fun hmet => hmet.1 hzero) (Set.eq_empty_iff_forall_notMem.1 hnone t)

end

/-! ## Both directions -/

theorem leads_nextLarger (p : PageSizes) : p.Leads (· < ·) p.nextLarger :=
  fun _ hsize => (orZero_nextLarger p (isPowerOfTwo_of_mem hsize)).imp isFirst_of_isLeast

theorem leads_nextSmaller (p : PageSizes) : p.Leads (· > ·) p.nextSmaller :=
  fun _ hsize => (orZero_nextSmaller p (isPowerOfTwo_of_mem hsize)).imp isFirst_of_isGreatest

/-- Downwards each size is smaller than the one before. -/
theorem exists_walk_nextSmaller (p : PageSizes) (size : UInt64) :
    ∃ walk, Walk p.nextSmaller size walk := by
  by_cases h : size = 0
  · exact ⟨[], h ▸ .done⟩
  · have hlt := nextSmaller_lt (p := p) h
    obtain ⟨rest, hrest⟩ := exists_walk_nextSmaller p (p.nextSmaller size)
    exact ⟨size :: rest, .step h hrest⟩
termination_by size.toNat

/-- Upwards each member is at least twice as large as the one before, so steps enough for doubling out
of the words are enough for the walk. -/
theorem walk_upwards {count : ℕ} (h : size = 0 ∨ size ∈ p ∧ 2 ^ 64 ≤ size.toNat * 2 ^ count) :
    Walk p.nextLarger size (p.upwards count size) := by
  induction count generalizing size with
  | zero =>
    rcases h with rfl | ⟨-, hroom⟩
    · exact .done
    · exact absurd size.toNat_lt (by omega)
  | succ count ih =>
    rw [upwards]
    split
    case isTrue hzero => exact hzero ▸ .done
    case isFalse hne =>
      obtain ⟨hmem, hroom⟩ := h.resolve_left hne
      refine .step hne (ih ?_)
      rcases leads_nextLarger p size hmem with ⟨⟨hin, hlt⟩, -⟩ | ⟨-, hzero⟩
      · have hdouble :=
          Word.two_mul_le_of_lt (isPowerOfTwo_of_mem hmem) (isPowerOfTwo_of_mem hin) hlt
        refine .inr ⟨hin, ?_⟩
        calc 2 ^ 64 ≤ size.toNat * 2 ^ (count + 1) := hroom
          _ = 2 * size.toNat * 2 ^ count := by
            rw [Nat.pow_succ', ← Nat.mul_assoc, Nat.mul_comm size.toNat]
          _ ≤ (p.nextLarger size).toNat * 2 ^ count := Nat.mul_le_mul_right _ hdouble
      · exact .inl hzero

theorem walk_members (p : PageSizes) : Walk p.nextLarger p.smallest p.members := by
  refine walk_upwards ((orZero_smallest p).symm.imp And.right fun hleast => ⟨hleast.1, ?_⟩)
  exact Nat.le_mul_of_pos_left _ (Word.toNat_pos_of_isPowerOfTwo (isPowerOfTwo_of_mem hleast.1))

/-- The walk upwards lists all members in increasing order. -/
theorem members_lists (p : PageSizes) :
    p.members.Pairwise (· < ·) ∧ ∀ t, t ∈ p.members ↔ t ∈ p :=
  (walk_members p).lists (leads_nextLarger p) UInt64.lt_trans
    ((orZero_smallest p).imp isFirst_of_isLeast)

/-- The walk downwards lists them in decreasing order. -/
theorem walk_largest {walk : List UInt64} (h : Walk p.nextSmaller p.largest walk) :
    walk.Pairwise (· > ·) ∧ ∀ t, t ∈ walk ↔ t ∈ p :=
  h.lists (leads_nextSmaller p) (fun hab hbc => UInt64.lt_trans hbc hab)
    ((orZero_largest p).imp isFirst_of_isGreatest)

/-- In a set that calls of `add` built, the neighbours of a power of two are the greatest size below
it and the least above it, and the largest and the smallest size are the extreme ones, with zero for
none. The walk upwards ends, and lists every size that was added once and in increasing order. -/
theorem queries_exact {sizes : List UInt64} (h : Built sizes p) :
    (∀ size, Word.isPowerOfTwo size = true →
      OrZero IsGreatest {t | t ∈ sizes ∧ t < size} (p.nextSmaller size) ∧
        OrZero IsLeast {t | t ∈ sizes ∧ size < t} (p.nextLarger size)) ∧
      OrZero IsGreatest {t | t ∈ sizes} p.largest ∧ OrZero IsLeast {t | t ∈ sizes} p.smallest ∧
      Walk p.nextLarger p.smallest p.members ∧ p.members.Pairwise (· < ·) ∧
      ∀ t, t ∈ p.members ↔ t ∈ sizes := by
  simp only [← h.mem_iff]
  exact ⟨fun size hpower => ⟨orZero_nextSmaller p hpower, orZero_nextLarger p hpower⟩,
    orZero_largest p, orZero_smallest p, walk_members p, members_lists p⟩

/-- The lowest and the highest bit, and one between them. -/
def bothEnds : PageSizes := ⟨0x8000000000001001⟩

/-- The highest bit first, then the lowest, and a size that is refused before the last. -/
theorem built_bothEnds : Built [0x8000000000000000, 1, 4096] bothEnds := by
  have hends : Built [0x8000000000000000, 1] ⟨0x8000000000000001⟩ := .of_ofList rfl
  have hrefused : add ⟨0x8000000000000001⟩ 3 = .error (.pageSizeNotPowerOfTwo 3) := rfl
  exact (hends.refused hrefused).added rfl

theorem queries_exact_bothEnds :
    Built [0x8000000000000000, 1, 4096] bothEnds ∧
      Word.isPowerOfTwo 0x8000000000000000 = true ∧
      OrZero IsGreatest {t | t ∈ [0x8000000000000000, 1, 4096] ∧ t < 0x8000000000000000}
        (bothEnds.nextSmaller 0x8000000000000000) ∧
      OrZero IsLeast {t | t ∈ [0x8000000000000000, 1, 4096] ∧ 0x8000000000000000 < t}
        (bothEnds.nextLarger 0x8000000000000000) ∧
      Walk bothEnds.nextLarger bothEnds.smallest [1, 4096, 0x8000000000000000] := by
  have htop : Word.isPowerOfTwo 0x8000000000000000 = true := by decide
  obtain ⟨hneighbours, -, -, hwalk, -⟩ := queries_exact built_bothEnds
  obtain ⟨hsmaller, hlarger⟩ := hneighbours 0x8000000000000000 htop
  have hmembers : bothEnds.members = [1, 4096, 0x8000000000000000] := by decide
  exact ⟨built_bothEnds, htop, hsmaller, hlarger, hmembers ▸ hwalk⟩

end HostServices.PageSizes
