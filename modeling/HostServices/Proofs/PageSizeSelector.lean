import HostServices.PageSizeSelector
import HostServices.Proofs.PageSizes.Order

/-!
# The page size of a region

The selection walks down from the largest size (`descend_eq_find?`) and takes the first one that the
region allows. The walk goes through all members in decreasing order, so the first is the greatest
(`isGreatest_of_find?`). The quotient and the bit mask that a size is tested with stand for the product
and for divisibility (`allows_iff`).
-/

namespace HostServices.PageSizeSelector

variable {p : PageSizes} {size regionSize minPages : UInt64} {aligned : Bool} {walk : List UInt64}

/-- The test of a size on the way down. -/
def allows (regionSize limit : UInt64) (aligned : Bool) (size : UInt64) : Bool :=
  size ≤ limit && (!aligned || Word.isAligned regionSize size)

/-- The registered sizes of which `minPages` pages fit into a region and, if asked, some number of
pages makes up the region. -/
def qualifying (registered : List UInt64) (regionSize minPages : UInt64) (aligned : Bool) :
    Set UInt64 :=
  {size | size ∈ registered ∧ size.toNat * minPages.toNat ≤ regionSize.toNat ∧
    (aligned = true → size.toNat ∣ regionSize.toNat)}

theorem allows_iff (hmin : minPages ≠ 0) (hpower : Word.isPowerOfTwo size = true) :
    allows regionSize (regionSize / minPages) aligned size = true ↔
      size.toNat * minPages.toNat ≤ regionSize.toNat ∧
        (aligned = true → size.toNat ∣ regionSize.toNat) := by
  have hpos : 0 < minPages.toNat := Nat.pos_of_ne_zero (Word.toNat_ne_zero hmin)
  rw [allows, Bool.and_eq_true, decide_eq_true_iff, UInt64.le_iff_toNat_le, UInt64.toNat_div,
    Nat.le_div_iff_mul_le hpos, Bool.or_eq_true, Bool.not_eq_true', Word.isAligned_iff hpower]
  refine and_congr_right fun _ => ?_
  cases aligned <;> simp

/-- The selection is a search of the walk down. -/
theorem descend_eq_find? {limit : UInt64} (h : PageSizes.Walk p.nextSmaller size walk) :
    descend p regionSize limit aligned size = walk.find? (allows regionSize limit aligned) := by
  induction h with
  | done =>
    rw [descend]
    rfl
  | @step size rest hne _ ih =>
    rw [descend, dif_neg hne, ih, List.find?_cons]
    show (if allows regionSize limit aligned size then _ else _) = _
    split <;> rename_i h <;> simp only [h]

/-- The first size found in a decreasing list is the greatest. -/
theorem isGreatest_of_find? {l : List UInt64} {test : UInt64 → Bool} (hl : l.Pairwise (· > ·))
    (h : l.find? test = some size) : IsGreatest {t | t ∈ l ∧ test t = true} size := by
  induction l with
  | nil => cases h
  | cons first rest ih =>
    obtain ⟨hfirst, hrest⟩ := List.pairwise_cons.1 hl
    rw [List.find?_cons] at h
    split at h
    case h_1 htest =>
      obtain rfl := Option.some.inj h
      refine ⟨⟨List.mem_cons_self, htest⟩, ?_⟩
      rintro t ⟨ht, -⟩
      rcases List.mem_cons.1 ht with rfl | ht
      · exact UInt64.le_refl t
      · exact UInt64.le_of_lt (hfirst t ht)
    case h_2 htest =>
      obtain ⟨⟨hmem, hsize⟩, hgreatest⟩ := ih hrest h
      refine ⟨⟨List.mem_cons_of_mem first hmem, hsize⟩, ?_⟩
      rintro t ⟨ht, httest⟩
      rcases List.mem_cons.1 ht with rfl | ht
      · exact absurd httest (by rw [htest]; decide)
      · exact hgreatest ⟨ht, httest⟩

/-- The walk down meets the qualifying sizes where the test succeeds. -/
theorem mem_qualifying {registered : List UInt64} (h : PageSizes.Built registered p)
    (hmin : minPages ≠ 0) (hwalk : PageSizes.Walk p.nextSmaller p.largest walk) :
    size ∈ qualifying registered regionSize minPages aligned ↔
      size ∈ walk ∧ allows regionSize (regionSize / minPages) aligned size = true := by
  rw [(PageSizes.walk_largest hwalk).2, h.mem_iff]
  exact and_congr_right fun hsize => (allows_iff hmin (h.isPowerOfTwo hsize)).symm

/-- With large pages, the page size for a region is the largest registered one of which enough pages
fit, and which divides the region if asked, or the base page size if there is none; without, it is the
base page size. The walk down from the largest size ends. -/
theorem pageSizeFor_optimal {s : PageSizeSelector} {registered : List UInt64}
    (h : PageSizes.Built registered s.sizes) (hmin : minPages ≠ 0) (regionSize : UInt64)
    (aligned : Bool) :
    (∃ walk, PageSizes.Walk s.sizes.nextSmaller s.sizes.largest walk) ∧
      ∃ size, s.pageSizeFor regionSize minPages aligned = .ok size ∧
        (s.useLargePages = true →
          IsGreatest (qualifying registered regionSize minPages aligned) size ∨
            qualifying registered regionSize minPages aligned = ∅ ∧ size = s.base) ∧
        (s.useLargePages = false → size = s.base) := by
  obtain ⟨walk, hwalk⟩ := PageSizes.exists_walk_nextSmaller s.sizes s.sizes.largest
  refine ⟨⟨walk, hwalk⟩, ?_⟩
  rw [pageSizeFor, if_neg hmin]
  by_cases hlarge : s.useLargePages = true
  · rw [if_pos hlarge, descend_eq_find? hwalk]
    refine ⟨_, rfl, fun _ => ?_, fun hoff => absurd hlarge (by rw [hoff]; decide)⟩
    have hset : qualifying registered regionSize minPages aligned =
        {t | t ∈ walk ∧ allows regionSize (regionSize / minPages) aligned t = true} :=
      Set.ext fun _ => mem_qualifying h hmin hwalk
    cases hfound : walk.find? (allows regionSize (regionSize / minPages) aligned) with
    | some size => exact .inl (hset ▸ isGreatest_of_find? (PageSizes.walk_largest hwalk).1 hfound)
    | none =>
      refine .inr ⟨hset.trans (Set.eq_empty_iff_forall_notMem.2 ?_), rfl⟩
      rintro t ⟨ht, hallows⟩
      exact List.find?_eq_none.1 hfound t ht hallows
  · rw [if_neg hlarge]
    exact ⟨s.base, rfl, fun hon => absurd hon hlarge, fun _ => rfl⟩

/-- Pages of 4 KiB, 16 KiB and 2 MiB. -/
def threeSizes : PageSizeSelector := ⟨⟨0x205000⟩, 4096, true⟩

/-- A region of 2 MiB in four aligned pages at least. -/
theorem pageSizeFor_optimal_quarters :
    PageSizes.Built [4096, 16384, 2097152] threeSizes.sizes ∧ (4 : UInt64) ≠ 0 ∧
      threeSizes.pageSizeFor 2097152 4 true = .ok 16384 ∧
      IsGreatest (qualifying [4096, 16384, 2097152] 2097152 4 true) 16384 := by
  have hbuilt : PageSizes.Built [4096, 16384, 2097152] threeSizes.sizes := .of_ofList rfl
  have hmin : (4 : UInt64) ≠ 0 := by decide
  have hanswer : threeSizes.pageSizeFor 2097152 4 true = .ok 16384 := by decide +kernel
  obtain ⟨-, size, hsize, hlarge, -⟩ := pageSizeFor_optimal hbuilt hmin 2097152 true
  obtain rfl : 16384 = size := Except.ok.inj (hanswer.symm.trans hsize)
  refine ⟨hbuilt, hmin, hanswer, (hlarge rfl).resolve_right fun hnone => ?_⟩
  exact absurd hnone.2 (by decide)

end HostServices.PageSizeSelector
