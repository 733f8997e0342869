import HostServices.Proofs.Tracker.WellFormed

/-!
# Calls on empty ranges

A call of size zero names an empty range. To reserve or commit one changes nothing. To uncommit or
release one takes no byte away, but cuts a committed range or a region in two where the address is
strictly inside it (`ranges_uncommit_self`, `toList_released_self`), so these change nothing exactly
if no such range or region is there (`zero_size_calls`).
-/

namespace HostServices

namespace Region

variable {gap : ℕ} {m : AddressMap UInt64} {r : Region} {addr lo hi : UInt64}

/-- A range cut at an address strictly inside it. -/
def cutAt (addr : UInt64) (x : UInt64 × UInt64) : List (UInt64 × UInt64) :=
  if x.1 < addr ∧ addr < x.2 then [(x.1, addr), (addr, x.2)] else [x]

theorem cutAt_of_not {x : UInt64 × UInt64} (h : ¬ (x.1 < addr ∧ addr < x.2)) : cutAt addr x = [x] :=
  if_neg h

/-- The pieces that an empty range leaves are those of a cut. -/
theorem mem_cutAt {x y : UInt64 × UInt64} : x ∈ cutAt addr y ↔ Piece addr addr y x := by
  unfold cutAt Piece
  simp only [UInt64.lt_iff_toNat_lt]
  split
  · rename_i h
    simp only [List.mem_cons, List.not_mem_nil, or_false]
    constructor
    · rintro (rfl | rfl)
      · exact .inr ⟨h.1, h.2, .inl ⟨h.1, rfl⟩⟩
      · exact .inr ⟨h.1, h.2, .inr ⟨h.2, rfl⟩⟩
    · rintro (⟨-, hout⟩ | ⟨-, -, ⟨-, hx⟩ | ⟨-, hx⟩⟩)
      · omega
      · exact .inl hx
      · exact .inr hx
  · rename_i h
    rw [List.mem_singleton]
    constructor
    · rintro rfl
      exact .inl ⟨rfl, by omega⟩
    · rintro (⟨rfl, -⟩ | ⟨h₁, h₂, -⟩)
      · rfl
      · exact absurd ⟨h₁, h₂⟩ h

theorem toList_cutOut_self (h : Spaced 0 m) (addr : UInt64) :
    (cutOut m addr addr).toList = m.toList.flatMap (cutAt addr) := by
  refine AddressMap.toList_eq_of_mem (List.pairwise_flatMap.2 ⟨fun x _ => ?_, ?_⟩) fun x => ?_
  · unfold cutAt
    split
    · rename_i hin
      exact List.pairwise_pair.2 hin.1
    · exact List.pairwise_singleton _ _
  · refine h.next.imp_of_mem fun {x y} hx hy hxy a ha b hb => UInt64.lt_iff_toNat_lt.2 ?_
    have hne := (mem_cutAt.1 ha).nonempty (h.nonempty x hx)
    have ha := (mem_cutAt.1 ha).within
    have hb := (mem_cutAt.1 hb).within
    omega
  · simp only [mem_cutOut h (Nat.le_refl addr.toNat), List.mem_flatMap, mem_cutAt]

theorem toList_inside (h : Spaced gap m) (lo hi : UInt64) :
    (inside m lo hi).toList = m.toList.filterMap (overlap lo hi) := by
  refine AddressMap.toList_eq_of_mem (List.pairwise_filterMap.2 ?_) fun x => ?_
  · refine h.next.imp fun {x y} hxy a ha b hb => UInt64.lt_iff_toNat_lt.2 ?_
    have ha := overlap_eq_some ha
    have hb := overlap_eq_some hb
    omega
  · rw [mem_inside h, List.mem_filterMap]

/-- A region as listings show it, with its committed ranges. -/
def row (r : Region) : UInt64 × UInt64 × Category × CallSite × List (UInt64 × UInt64) :=
  (r.base, r.size, r.category, r.site, r.ranges)

/-- A region is known by its row. -/
theorem eq_of_row {r r' : Region} (h : r.row = r'.row) : r = r' := by
  obtain ⟨base, size, c, site, committed⟩ := r
  obtain ⟨base', size', c', site', committed'⟩ := r'
  simp only [row, Prod.mk.injEq] at h
  obtain ⟨rfl, rfl, rfl, rfl, hranges⟩ := h
  obtain rfl := AddressMap.ext hranges
  rfl

/-- The row of a region whose committed ranges are cut at an address. -/
def cutRow (addr : UInt64) (r : Region) :
    UInt64 × UInt64 × Category × CallSite × List (UInt64 × UInt64) :=
  (r.base, r.size, r.category, r.site, r.ranges.flatMap (cutAt addr))

/-- The row of the part `[lo, hi)` of a region. -/
def partRow (lo hi : UInt64) (r : Region) :
    UInt64 × UInt64 × Category × CallSite × List (UInt64 × UInt64) :=
  (lo, hi - lo, r.category, r.site, r.ranges.filterMap (overlap lo hi))

/-- A region divided at an address strictly inside it. -/
def divided (addr : UInt64) (r : Region) : List Region :=
  if r.base < addr ∧ addr < r.finish then [r.part r.base addr, r.part addr r.finish] else [r]

/-- The rows of a region that is divided at an address strictly inside it. -/
def dividedRows (addr : UInt64) (r : Region) :
    List (UInt64 × UInt64 × Category × CallSite × List (UInt64 × UInt64)) :=
  if r.base < addr ∧ addr < r.finish then [r.partRow r.base addr, r.partRow addr r.finish]
  else [r.row]

theorem row_part (h : r.Shaped gap) (lo hi : UInt64) : (r.part lo hi).row = r.partRow lo hi := by
  rw [partRow, ranges, ← toList_inside h.spaced]
  rfl

theorem row_uncommit_self (h : r.Shaped 0) (addr : UInt64) :
    (r.uncommit addr addr).row = r.cutRow addr := by
  rw [cutRow, ranges, ← toList_cutOut_self h.spaced]
  rfl

/-- No range is cut where an address is strictly inside none of them. -/
theorem cutRow_of_not (h : ∀ x ∈ r.ranges, ¬ (x.1 < addr ∧ addr < x.2)) :
    r.cutRow addr = r.row := by
  have hranges : r.ranges.flatMap (cutAt addr) = r.ranges := by
    rw [List.flatMap_congr (g := fun x => [x]) fun x hx => cutAt_of_not (h x hx)]
    exact List.flatMap_singleton' _
  rw [cutRow, hranges, row]

theorem commit_self (r : Region) (addr : UInt64) : r.commit addr addr = r := by
  cases hc : r.clip addr addr with
  | none => rw [commit, hc]
  | some x =>
    have := clip_eq_some hc
    omega

/-- The slice between two addresses of a region is the part between them. -/
theorem slice_of_lt (hlo : r.base.toNat ≤ lo.toNat) (hlt : lo.toNat < hi.toNat)
    (hhi : hi.toNat ≤ r.finish.toNat) : r.slice lo hi = some (r.part lo hi) := by
  rw [slice_eq]
  cases hc : r.clip lo hi with
  | none =>
    have := clip_eq_none hc
    omega
  | some x =>
    obtain ⟨h₁, h₂, -⟩ := clip_eq_some hc
    rw [Option.map_some, UInt64.toNat_inj.1 (show x.1.toNat = lo.toNat by omega),
      UInt64.toNat_inj.1 (show x.2.toNat = hi.toNat by omega)]

theorem remains_self (h₁ : r.base < addr) (h₂ : addr < r.finish) :
    Tracker.remains addr addr r = [r.part r.base addr, r.part addr r.finish] := by
  have h₁ := UInt64.lt_iff_toNat_lt.1 h₁
  have h₂ := UInt64.lt_iff_toNat_lt.1 h₂
  rw [Tracker.remains, slice_of_lt (Nat.le_refl _) h₁ (Nat.le_of_lt h₂),
    slice_of_lt (Nat.le_of_lt h₁) h₂ (Nat.le_refl _)]
  rfl

end Region

namespace Tracker

variable {gap : ℕ} {t : Tracker} {addr : UInt64}

/-- The regions as listings show them. -/
def rows (t : Tracker) : List (UInt64 × UInt64 × Category × CallSite × List (UInt64 × UInt64)) :=
  t.regions.values.map Region.row

theorem addSat_zero (addr : UInt64) : Word.addSat addr 0 = addr := by
  have := addr.toNat_lt
  rw [← UInt64.toNat_inj, Word.toNat_addSat, UInt64.toNat_zero]
  omega

namespace Shaped

/-- Trackers are known by their rows, since the base of a region is its key. -/
theorem eq_of_rows {t' : Tracker} (h : t.Shaped gap) (h' : t'.Shaped gap) (hrows : t.rows = t'.rows) :
    t = t' := by
  have keyed {t : Tracker} (h : t.Shaped gap) :
      t.regions.toList = t.regions.values.map fun r => (r.base, r) := by
    calc t.regions.toList
      _ = t.regions.toList.map id := (List.map_id _).symm
      _ = t.regions.toList.map fun e => (e.2.base, e.2) :=
        List.map_congr_left fun e he => Prod.ext (h.keyed e he).symm rfl
      _ = t.regions.values.map fun r => (r.base, r) := by rw [AddressMap.values, List.map_map]; rfl
  have hvalues : t.regions.values = t'.regions.values :=
    List.map_injective_iff.2 (fun _ _ => Region.eq_of_row) hrows
  have hlist : t.regions.toList = t'.regions.toList := by rw [keyed h, keyed h', hvalues]
  exact congrArg Tracker.mk (AddressMap.ext hlist)

/-- A change of the region at an address shows in the entry of that region only. -/
theorem toList_adjust (h : t.Shaped gap) (addr : UInt64) (f : Region → Region) :
    (t.adjust addr f).regions.toList = t.regions.toList.map fun e =>
      (e.1, if e.2.contains addr then f e.2 else e.2) := by
  refine AddressMap.toList_eq_of_mem (List.pairwise_map.2 t.regions.sorted) fun e => ?_
  rw [List.mem_map]
  cases hx : t.entryAt addr with
  | none =>
    have hout := h.entryAt_eq_none.1 hx
    have hself (x : UInt64 × Region) (hx : x ∈ t.regions.toList) :
        (x.1, if x.2.contains addr then f x.2 else x.2) = x := by
      rw [if_neg (mt Region.contains_iff.1 (hout x hx))]
    rw [adjust_of_none hx]
    constructor
    · intro he
      exact ⟨e, he, hself e he⟩
    · rintro ⟨x, hx, rfl⟩
      rwa [hself x hx]
  | some x =>
    obtain ⟨hmem, hin⟩ := h.entryAt_eq_some.1 hx
    rw [h.mem_adjust hx]
    constructor
    · rintro (rfl | ⟨he, hout⟩)
      · exact ⟨x, hmem, by rw [if_pos (Region.contains_iff.2 hin)]⟩
      · exact ⟨e, he, by rw [if_neg (mt Region.contains_iff.1 hout)]⟩
    · rintro ⟨y, hy, rfl⟩
      split
      · rename_i hcontains
        obtain rfl := Option.some.inj
          (hx.symm.trans (h.entryAt_eq_some.2 ⟨hy, Region.contains_iff.1 hcontains⟩))
        exact .inl rfl
      · rename_i hcontains
        exact .inr ⟨hy, mt Region.contains_iff.2 hcontains⟩

/-- To commit nothing changes nothing. -/
theorem commit_zero (h : t.Shaped gap) (addr : UInt64) :
    ((Tracker.commit addr 0).run t).state = t := by
  have hlist := h.toList_adjust addr id
  simp only [id_eq, ite_self, Prod.mk.eta, List.map_id'] at hlist
  rw [(run_commit addr 0 t).1, addSat_zero, funext fun r => Region.commit_self r addr]
  exact congrArg Tracker.mk (AddressMap.ext hlist)

/-- To uncommit nothing cuts the committed range that has the address strictly inside it. -/
theorem rows_uncommit_zero (h : t.Shaped 0) (addr : UInt64) :
    ((uncommit addr 0).run t).state.rows = t.regions.values.map (Region.cutRow addr) := by
  rw [(run_uncommit addr 0 t).1, addSat_zero, rows, AddressMap.values, h.toList_adjust, List.map_map,
    AddressMap.values, List.map_map, List.map_map]
  refine List.map_congr_left fun e he => ?_
  have hr := h.regions e he
  show Region.row (if e.2.contains addr then e.2.uncommit addr addr else e.2) = e.2.cutRow addr
  split
  · exact Region.row_uncommit_self hr addr
  · rename_i hout
    -- Where the region does not have the address, none of its ranges does.
    refine (Region.cutRow_of_not fun x hx hin => hout (Region.contains_iff.2 ?_)).symm
    exact hr.covered_subset ⟨x, hx, Nat.le_of_lt (UInt64.lt_iff_toNat_lt.1 hin.1),
      UInt64.lt_iff_toNat_lt.1 hin.2⟩

theorem uncommit_zero_eq_iff (h : t.Shaped 0) (addr : UInt64) :
    ((uncommit addr 0).run t).state = t ↔
      ∀ r ∈ t.regions.values, ∀ x ∈ r.ranges, ¬ (x.1 < addr ∧ addr < x.2) := by
  have hrows := h.rows_uncommit_zero addr
  constructor
  · -- The front of a range that is cut would have the key of the range.
    intro heq r hr x hx hin
    rw [heq, rows] at hrows
    have hrow := List.map_inj_left.1 hrows r hr
    have hranges : r.ranges = r.ranges.flatMap (Region.cutAt addr) := congrArg (·.2.2.2.2) hrow
    have hfront : (x.1, addr) ∈ r.ranges := by
      rw [hranges, List.mem_flatMap]
      exact ⟨x, hx, by rw [Region.cutAt, if_pos hin]; exact List.mem_cons_self⟩
    have hsame := AddressMap.eq_of_mem hfront hx rfl
    rw [← hsame] at hin
    exact UInt64.lt_irrefl _ hin.2
  · intro hout
    have hunsized : 0 < 0 → (TrackerCall.uncommit addr 0).Sized := fun hpos =>
      absurd hpos (Nat.lt_irrefl 0)
    have hshaped : ((uncommit addr 0).run t).state.Shaped 0 := h.perform (Nat.zero_le 1) hunsized
    refine hshaped.eq_of_rows h (hrows.trans ?_)
    exact List.map_congr_left fun r hr => Region.cutRow_of_not (hout r hr)

/-- The entries of a region that is divided: itself, where the address is not strictly inside it,
and what remains of it, by base, where it is. -/
theorem mem_divided (h : t.Shaped gap) {e x : UInt64 × Region} (hx : x ∈ t.regions.toList) :
    e ∈ (x.2.divided addr).map (fun r => (r.base, r)) ↔
      e = x ∧ (x.2.finish.toNat ≤ addr.toNat ∨ addr.toNat ≤ x.2.base.toNat) ∨
        e.2.base = e.1 ∧ x.2.base.toNat < addr.toNat ∧ addr.toNat < x.2.finish.toNat ∧
          e.2 ∈ remains addr addr x.2 := by
  unfold Region.divided
  split
  · rename_i hin
    have hlo := UInt64.lt_iff_toNat_lt.1 hin.1
    have hhi := UInt64.lt_iff_toNat_lt.1 hin.2
    rw [List.mem_map, Region.remains_self hin.1 hin.2]
    constructor
    · rintro ⟨r, hr, rfl⟩
      exact .inr ⟨rfl, hlo, hhi, hr⟩
    · rintro (⟨-, hout⟩ | ⟨hkey, -, -, hr⟩)
      · omega
      · exact ⟨e.2, hr, Prod.ext hkey rfl⟩
  · rename_i hout
    simp only [UInt64.lt_iff_toNat_lt] at hout
    have hself : (x.2.base, x.2) = x := Prod.ext (h.keyed x hx) rfl
    rw [List.map_singleton, List.mem_singleton, hself]
    constructor
    · rintro rfl
      exact .inl ⟨rfl, by omega⟩
    · rintro (⟨rfl, -⟩ | ⟨-, hlo, hhi, -⟩)
      · rfl
      · omega

/-- The parts of a region are kept by addresses in it. -/
theorem key_divided (h : t.Shaped gap) {e x : UInt64 × Region} (hx : x ∈ t.regions.toList)
    (he : e ∈ (x.2.divided addr).map fun r => (r.base, r)) :
    x.2.base.toNat ≤ e.1.toNat ∧ e.1.toNat < x.2.finish.toNat := by
  rcases (h.mem_divided hx).1 he with ⟨rfl, -⟩ | ⟨hkey, -, -, hr⟩
  · rw [← h.keyed e hx]
    exact ⟨Nat.le_refl _, (h.regions e hx).base_lt_finish⟩
  · have hr := Region.isRemains (h.regions x hx) hr
    rw [← hkey]
    exact ⟨hr.base_le, Nat.lt_of_lt_of_le hr.shaped.base_lt_finish hr.finish_le⟩

/-- To release nothing divides the region that has the address strictly inside it. -/
theorem toList_released_self (h : t.Shaped gap) (addr : UInt64) :
    (t.released addr addr).regions.toList = t.regions.toList.flatMap fun e =>
      (e.2.divided addr).map fun r => (r.base, r) := by
  refine AddressMap.toList_eq_of_mem (List.pairwise_flatMap.2 ⟨fun x hx => ?_, ?_⟩) fun e => ?_
  · rw [List.pairwise_map]
    unfold Region.divided
    split
    · rename_i hin
      exact List.pairwise_pair.2 hin.1
    · exact List.pairwise_singleton _ _
  · refine h.disjoint.imp_of_mem fun {x y} hx hy hxy a ha b hb => UInt64.lt_iff_toNat_lt.2 ?_
    have hxy := UInt64.le_iff_toNat_le.1 hxy
    exact Nat.lt_of_lt_of_le (h.key_divided hx ha).2 (Nat.le_trans hxy (h.key_divided hy hb).1)
  · simp only [h.mem_released (Nat.le_refl addr.toNat), List.mem_flatMap]
    constructor
    · rintro (⟨he, hout⟩ | ⟨hkey, x, hx, hlo, hhi, hr⟩)
      · exact ⟨e, he, (h.mem_divided he).2 (.inl ⟨rfl, hout⟩)⟩
      · exact ⟨x, hx, (h.mem_divided hx).2 (.inr ⟨hkey, hlo, hhi, hr⟩)⟩
    · rintro ⟨x, hx, he⟩
      rcases (h.mem_divided hx).1 he with ⟨rfl, hout⟩ | ⟨hkey, hlo, hhi, hr⟩
      · exact .inl ⟨hx, hout⟩
      · exact .inr ⟨hkey, x, hx, hlo, hhi, hr⟩

theorem rows_release_zero (h : t.Shaped gap) (addr : UInt64) :
    ((release addr 0).run t).state.rows = t.regions.values.flatMap (Region.dividedRows addr) := by
  rw [(run_release addr 0 t).1, addSat_zero, rows, AddressMap.values, h.toList_released_self,
    AddressMap.values, List.flatMap_map]
  simp only [List.map_flatMap, List.map_map]
  refine List.flatMap_congr fun e he => ?_
  have hr := h.regions e he
  show (e.2.divided addr).map Region.row = e.2.dividedRows addr
  unfold Region.divided Region.dividedRows
  split
  · rw [List.map_cons, List.map_singleton, Region.row_part hr, Region.row_part hr]
  · rfl

theorem release_zero_eq_iff (h : t.Shaped gap) (addr : UInt64) :
    ((release addr 0).run t).state = t ↔
      ∀ r ∈ t.regions.values, ¬ (r.base < addr ∧ addr < r.finish) := by
  have hlist := h.toList_released_self addr
  rw [(run_release addr 0 t).1, addSat_zero]
  constructor
  · -- The second part of a region that is divided would be a region that starts inside it.
    intro heq r hr hin
    obtain ⟨e, he, rfl⟩ := List.mem_map.1 hr
    have hpart : (addr, e.2.part addr e.2.finish) ∈ t.regions.toList := by
      rw [← heq, hlist, List.mem_flatMap]
      refine ⟨e, he, List.mem_map.2 ⟨e.2.part addr e.2.finish, ?_, rfl⟩⟩
      rw [Region.divided, if_pos hin]
      exact List.mem_cons_of_mem _ List.mem_cons_self
    have hlo := UInt64.lt_iff_toNat_lt.1 hin.1
    have hhi := UInt64.lt_iff_toNat_lt.1 hin.2
    have hne : addr.toNat < (e.2.part addr e.2.finish).finish.toNat :=
      (h.regions _ hpart).base_lt_finish
    rcases h.eq_or_beside he hpart with hsame | hside | hside
    · rw [hsame] at hlo
      exact Nat.lt_irrefl _ hlo
    · exact absurd hhi (Nat.not_lt.2 hside)
    · have hside : (e.2.part addr e.2.finish).finish.toNat ≤ e.2.base.toNat := hside
      omega
  · intro hout
    have hwhole : ∀ e ∈ t.regions.toList,
        (e.2.divided addr).map (fun r => (r.base, r)) = [e] := fun e he => by
      rw [Region.divided, if_neg (hout e.2 (List.mem_map_of_mem he)), List.map_singleton,
        h.keyed e he]
    rw [List.flatMap_congr hwhole, List.flatMap_singleton'] at hlist
    exact congrArg Tracker.mk (AddressMap.ext hlist)

/-- To release nothing answers true exactly if a region has the address strictly inside it. -/
theorem release_zero_answer (h : t.Shaped gap) (addr : UInt64) :
    ((release addr 0).run t).result =
      .ok (t.regions.values.any fun r => r.base < addr && addr < r.finish) := by
  rw [(run_release addr 0 t).2, addSat_zero]
  refine congrArg Except.ok (Bool.eq_iff_iff.2 ?_)
  rw [Bool.not_eq_true', List.isEmpty_eq_false_iff_exists_mem, List.any_eq_true]
  simp only [h.mem_overlapping, Bool.and_eq_true, decide_eq_true_eq, UInt64.lt_iff_toNat_lt]
  constructor
  · rintro ⟨e, he, hin⟩
    exact ⟨e.2, List.mem_map_of_mem he, hin⟩
  · rintro ⟨r, hr, hin⟩
    obtain ⟨e, he, rfl⟩ := List.mem_map.1 hr
    exact ⟨e, he, hin⟩

end Shaped

/-- Whatever calls were made, to reserve or commit nothing changes nothing. To uncommit nothing cuts
the committed range that has the address strictly inside it, and to release nothing divides the
region that has it so and then answers true; they change nothing exactly if there is none. -/
theorem zero_size_calls (calls : List TrackerCall) (addr : UInt64) (c : Category)
    (site : CallSite) :
    let t := TrackerCall.run calls {}
    ((reserve addr 0 c site).run t).state = t ∧
      ((reserveCommitted addr 0 c site).run t).state = t ∧
      ((commit addr 0).run t).state = t ∧
      (((uncommit addr 0).run t).state.rows = t.regions.values.map (Region.cutRow addr) ∧
        (((uncommit addr 0).run t).state = t ↔
          ∀ r ∈ t.regions.values, ∀ x ∈ r.ranges, ¬ (x.1 < addr ∧ addr < x.2))) ∧
      ((release addr 0).run t).state.rows = t.regions.values.flatMap (Region.dividedRows addr) ∧
      ((release addr 0).run t).result =
        .ok (t.regions.values.any fun r => r.base < addr && addr < r.finish) ∧
      (((release addr 0).run t).state = t ↔
        ∀ r ∈ t.regions.values, ¬ (r.base < addr ∧ addr < r.finish)) := by
  intro t
  have h : t.Shaped 0 := shaped_run calls
  refine ⟨(reserve_zero addr c site t).1, ?_, h.commit_zero addr,
    ⟨h.rows_uncommit_zero addr, h.uncommit_zero_eq_iff addr⟩, h.rows_release_zero addr,
    h.release_zero_answer addr, h.release_zero_eq_iff addr⟩
  rw [(reserveCommitted_zero addr c site t).1]
  exact h.commit_zero addr

/-- A reservation whose front half is committed. -/
def halfCommitted : List TrackerCall :=
  [.reserve 0x100000 0x4000 .gc ⟨"src/sites.rs", 9, 14⟩, .commit 0x100000 0x2000]

/-- In the middle of the committed half, to uncommit nothing cuts the range, and to release nothing
divides the region and answers true. -/
theorem halfCommitted_divided :
    (TrackerCall.run halfCommitted {}).rows =
        [(0x100000, 0x4000, .gc, ⟨"src/sites.rs", 9, 14⟩, [(0x100000, 0x102000)])] ∧
      ((uncommit 0x101000 0).run (TrackerCall.run halfCommitted {})).state.rows =
        [(0x100000, 0x4000, .gc, ⟨"src/sites.rs", 9, 14⟩,
          [(0x100000, 0x101000), (0x101000, 0x102000)])] ∧
      ((release 0x101000 0).run (TrackerCall.run halfCommitted {})).state.rows =
        [(0x100000, 0x1000, .gc, ⟨"src/sites.rs", 9, 14⟩, [(0x100000, 0x101000)]),
          (0x101000, 0x3000, .gc, ⟨"src/sites.rs", 9, 14⟩, [(0x101000, 0x102000)])] ∧
      ((release 0x101000 0).run (TrackerCall.run halfCommitted {})).result = .ok true :=
  ⟨rfl, rfl, rfl, rfl⟩

end Tracker

end HostServices
