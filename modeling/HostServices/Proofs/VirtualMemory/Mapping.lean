import HostServices.Proofs.Tracker.Bytes
import HostServices.Recorder
import HostServices.VirtualMemory

/-!
# Mappings at an address

A mapping at an address replaces what the host has there and nothing else. The tracker records it
like any reservation that is committed in full: the range becomes one committed region, and every
region that has a byte of it is dropped, with its bytes beside the range
(`status_after_fixed_mapping`). So the bytes beside the range keep their status exactly if every
region that meets the range lies inside it.
-/

namespace HostServices

/-- The addresses of `size` bytes at `base`, up to the top. -/
def Word.span (base size : UInt64) : Set UInt64 :=
  {a | a.toNat ∈ Set.Ico base.toNat (base.toNat + size.toNat)}

/-- The region has a byte of a range. -/
def Region.Meets (r : Region) (base size : UInt64) : Prop :=
  r.base.toNat < base.toNat + size.toNat ∧ base.toNat < r.finish.toNat

/-- A region without a byte of a range is beside it. -/
theorem Region.WellFormed.disjoint_iff {r : Region} {base size : UInt64} (h : r.WellFormed)
    (hs : size ≠ 0) :
    Disjoint r.holding.bytes (Set.Ico base.toNat (base.toNat + size.toNat)) ↔
      ¬ r.Meets base size := by
  have hpos : 0 < size.toNat := UInt64.lt_iff_toNat_lt.1 (UInt64.pos_iff_ne_zero.2 hs)
  have hlt := h.shaped.base_lt_finish
  rw [Region.holding, Set.Ico_disjoint_Ico, Region.Meets]
  omega

/-- A reservation that is committed in full drops the holdings that it overlaps. -/
theorem Holding.reserve_commit {base size : ℕ} (hpos : 0 < size) (c : Category) (site : CallSite)
    (ks : Set Holding) :
    atByte base (commit (Set.Ico base (base + size))) (reserve base size c site ks) =
      {k | k ∈ ks ∧ Disjoint k.bytes (Set.Ico base (base + size))} ∪
        {⟨Set.Ico base (base + size), c, site, Set.Ico base (base + size)⟩} := by
  have hbase : base ∈ Set.Ico base (base + size) := ⟨Nat.le_refl base, Nat.lt_add_of_pos_right hpos⟩
  have hnew : commit (Set.Ico base (base + size)) ⟨Set.Ico base (base + size), c, site, ∅⟩ =
      ⟨Set.Ico base (base + size), c, site, Set.Ico base (base + size)⟩ := by
    rw [commit, Set.inter_self, Set.empty_union]
  ext k
  constructor
  · rintro (⟨hk | rfl, hout⟩ | ⟨_, ⟨⟨-, hdisjoint⟩ | rfl, hin⟩, rfl⟩)
    · exact .inl hk
    · exact absurd hbase hout
    · exact absurd hbase (Set.disjoint_left.1 hdisjoint hin)
    · exact .inr hnew
  · rintro (⟨hk, hdisjoint⟩ | rfl)
    · exact .inl ⟨.inl ⟨hk, hdisjoint⟩, fun hin => Set.disjoint_left.1 hdisjoint hin hbase⟩
    · exact .inr ⟨_, ⟨.inr rfl, hbase⟩, hnew⟩

namespace Tracker

variable {t : Tracker} {base size a : UInt64} {c : Category} {site : CallSite}

/-- The category of the region that holds an address, if one does, and whether the address is
committed. -/
def status (t : Tracker) (a : UInt64) : Option (Category × Bool) :=
  (t.regionAt a).map fun r => (r.category, r.isCommitted a)

namespace WellFormed

theorem of_regionAt (h : t.WellFormed) {r : Region} (hr : t.regionAt a = some r) :
    r.WellFormed ∧ r ∈ t.regions.values ∧ a.toNat ∈ r.holding.bytes := by
  obtain ⟨e, he, rfl⟩ := Option.map_eq_some_iff.1 hr
  obtain ⟨hmem, hin⟩ := h.shaped.entryAt_eq_some.1 he
  exact ⟨h.regions e hmem, List.mem_map_of_mem hmem, hin⟩

theorem wellFormed_of_mem (h : t.WellFormed) {r : Region} (hr : r ∈ t.regions.values) :
    r.WellFormed := by
  obtain ⟨e, he, rfl⟩ := List.mem_map.1 hr
  exact h.regions e he

/-- Each region is found at each of its addresses. -/
theorem regionAt_of_mem (h : t.WellFormed) {r : Region} (hr : r ∈ t.regions.values)
    (hin : a.toNat ∈ r.holding.bytes) : t.regionAt a = some r := by
  obtain ⟨e, he, rfl⟩ := List.mem_map.1 hr
  exact Option.map_eq_some_iff.2 ⟨e, h.shaped.entryAt_eq_some.2 ⟨he, hin⟩, rfl⟩

/-- The status of an address is that of the holding that has it. -/
theorem status_eq_some_iff (h : t.WellFormed) {s : Category × Bool} :
    t.status a = some s ↔ ∃ k ∈ t.holdings, a.toNat ∈ k.bytes ∧ k.category = s.1 ∧
      (s.2 = true ↔ a.toNat ∈ k.committed) := by
  constructor
  · intro hs
    obtain ⟨r, hr, rfl⟩ := Option.map_eq_some_iff.1 hs
    have hk := h.shaped.regionAt_iff.1 ⟨r, hr, rfl⟩
    exact ⟨r.holding, hk.1, hk.2, rfl, Region.mem_committed_iff (h.of_regionAt hr).1⟩
  · rintro ⟨k, hk, hin, hc, hcommitted⟩
    obtain ⟨r, hr, rfl⟩ := h.shaped.regionAt_iff.2 ⟨hk, hin⟩
    have hb : r.isCommitted a = s.2 := by
      rw [Bool.eq_iff_iff, hcommitted]
      exact Region.mem_committed_iff (h.of_regionAt hr).1
    rw [status, hr, Option.map_some, hb]
    exact congrArg some (Prod.ext hc rfl)

/-! ## Reserving and committing in full -/

section reserveCommitted

variable (h : t.WellFormed) (hs : size ≠ 0) (hfits : base.toNat + size.toNat < 2 ^ 64)
include h hs hfits

theorem reserveCommitted (c : Category) (site : CallSite) :
    ((Tracker.reserveCommitted base size c site).run t).state.WellFormed := by
  rw [(reserveCommitted_of_lt hs hfits c site t).1]
  exact Tracker.wellFormed_iff.2 ((h.shaped.reserved hs hfits).commit le_rfl base size)

theorem holdings_reserveCommitted (c : Category) (site : CallSite) :
    ((Tracker.reserveCommitted base size c site).run t).state.holdings =
      {k | k ∈ t.holdings ∧ Disjoint k.bytes (Set.Ico base.toNat (base.toNat + size.toNat))} ∪
        {⟨Set.Ico base.toNat (base.toNat + size.toNat), c, site,
          Set.Ico base.toNat (base.toNat + size.toNat)⟩} := by
  have hpos : 0 < size.toNat := UInt64.lt_iff_toNat_lt.1 (UInt64.pos_iff_ne_zero.2 hs)
  have hend : heldEnd base size = base.toNat + size.toNat := by
    rw [heldEnd]
    omega
  rw [(reserveCommitted_of_lt hs hfits c site t).1, (h.shaped.reserved hs hfits).holdings_commit, hend,
    h.shaped.holdings_reserved hs hfits]
  exact Holding.reserve_commit hpos c site t.holdings

/-- The range is one region. -/
theorem region_reserveCommitted (c : Category) (site : CallSite) :
    ∃ r ∈ ((Tracker.reserveCommitted base size c site).run t).state.regions.values,
      r.base = base ∧ r.size = size ∧ r.category = c ∧ r.site = site ∧
        ∀ a, r.isCommitted a = true ↔ a ∈ Word.span base size := by
  have hwf := h.reserveCommitted hs hfits c site
  have hnew : (⟨Set.Ico base.toNat (base.toNat + size.toNat), c, site,
      Set.Ico base.toNat (base.toNat + size.toNat)⟩ : Holding) ∈
        ((Tracker.reserveCommitted base size c site).run t).state.holdings := by
    rw [h.holdings_reserveCommitted hs hfits]
    exact .inr rfl
  obtain ⟨e, he, hholding⟩ := hnew
  have hr := hwf.regions e he
  have hbytes : Set.Ico e.2.base.toNat e.2.finish.toNat =
      Set.Ico base.toNat (base.toNat + size.toNat) := congrArg Holding.bytes hholding
  obtain ⟨hbase, hfinish⟩ := (Set.Ico_eq_Ico_iff (.inl hr.shaped.base_lt_finish)).1 hbytes
  rw [hr.shaped.toNat_finish] at hfinish
  refine ⟨e.2, List.mem_map_of_mem he, UInt64.toNat_inj.1 hbase, UInt64.toNat_inj.1 (by omega),
    congrArg Holding.category hholding, congrArg Holding.site hholding, fun a => ?_⟩
  rw [Region.mem_committed_iff hr, hholding]
  rfl

theorem status_reserveCommitted_of_mem (c : Category) (site : CallSite)
    (ha : a ∈ Word.span base size) :
    ((Tracker.reserveCommitted base size c site).run t).state.status a = some (c, true) := by
  rw [(h.reserveCommitted hs hfits c site).status_eq_some_iff, h.holdings_reserveCommitted hs hfits]
  exact ⟨_, .inr rfl, ha, rfl, iff_of_true rfl ha⟩

/-- Beside the range, a region that meets it is gone. -/
theorem status_reserveCommitted_of_meets (c : Category) (site : CallSite)
    (ha : a ∉ Word.span base size) {r : Region} (hr : t.regionAt a = some r)
    (hmeets : r.Meets base size) :
    ((Tracker.reserveCommitted base size c site).run t).state.status a = none := by
  refine Option.eq_none_iff_forall_ne_some.2 fun s hstatus => ?_
  rw [(h.reserveCommitted hs hfits c site).status_eq_some_iff,
    h.holdings_reserveCommitted hs hfits] at hstatus
  obtain ⟨k, ⟨hk, hdisjoint⟩ | rfl, hin, -⟩ := hstatus
  · obtain ⟨r', hr', rfl⟩ := h.shaped.regionAt_iff.2 ⟨hk, hin⟩
    obtain rfl := Option.some.inj (hr.symm.trans hr')
    exact ((h.of_regionAt hr).1.disjoint_iff hs).1 hdisjoint hmeets
  · exact ha hin

/-- Beside the range, a region that does not meet it stays, and no other comes. -/
theorem status_reserveCommitted_of_beside (c : Category) (site : CallSite)
    (ha : a ∉ Word.span base size)
    (hbeside : ∀ r, t.regionAt a = some r → ¬ r.Meets base size) :
    ((Tracker.reserveCommitted base size c site).run t).state.status a = t.status a := by
  refine Option.ext fun s => ?_
  rw [(h.reserveCommitted hs hfits c site).status_eq_some_iff, h.status_eq_some_iff,
    h.holdings_reserveCommitted hs hfits]
  constructor
  · rintro ⟨k, ⟨hk, -⟩ | rfl, hin, hstatus⟩
    · exact ⟨k, hk, hin, hstatus⟩
    · exact absurd hin ha
  · rintro ⟨k, hk, hin, hstatus⟩
    obtain ⟨r, hr, rfl⟩ := h.shaped.regionAt_iff.2 ⟨hk, hin⟩
    have hdisjoint := ((h.of_regionAt hr).1.disjoint_iff hs).2 (hbeside r hr)
    exact ⟨r.holding, .inl ⟨hk, hdisjoint⟩, hin, hstatus⟩

/-- Everything beside the range keeps its status exactly if each region that meets the range lies
inside it. -/
theorem status_reserveCommitted_beside_iff (c : Category) (site : CallSite) :
    (∀ a ∉ Word.span base size,
        ((Tracker.reserveCommitted base size c site).run t).state.status a = t.status a) ↔
      ∀ r ∈ t.regions.values, r.Meets base size →
        base ≤ r.base ∧ r.finish.toNat ≤ base.toNat + size.toNat := by
  constructor
  · intro hkept r hr hmeets
    -- An address of the region beside the range would have lost its status.
    have inside (a : UInt64) (hin : a.toNat ∈ r.holding.bytes) : a ∈ Word.span base size := by
      by_contra ha
      have hat := h.regionAt_of_mem hr hin
      have hlost := hkept a ha
      rw [h.status_reserveCommitted_of_meets hs hfits c site ha hat hmeets, status, hat] at hlost
      cases hlost
    have hlt := (h.wellFormed_of_mem hr).shaped.base_lt_finish
    obtain ⟨hbefore, hafter⟩ := hmeets
    refine ⟨UInt64.le_iff_toNat_le.2 (inside r.base ⟨Nat.le_refl _, hlt⟩).1, ?_⟩
    by_contra hover
    have hend : (UInt64.ofNat (base.toNat + size.toNat)).toNat = base.toNat + size.toNat :=
      UInt64.toNat_ofNat_of_lt' hfits
    have hin : (UInt64.ofNat (base.toNat + size.toNat)).toNat ∈ r.holding.bytes := by
      rw [hend]
      exact ⟨Nat.le_of_lt hbefore, Nat.lt_of_not_le hover⟩
    have hspan := (inside _ hin).2
    rw [hend] at hspan
    exact Nat.lt_irrefl _ hspan
  · intro hwithin a ha
    refine h.status_reserveCommitted_of_beside hs hfits c site ha fun r hr hmeets => ha ?_
    obtain ⟨-, hmem, hin⟩ := h.of_regionAt hr
    obtain ⟨hlo, hhi⟩ := hwithin r hmem hmeets
    exact ⟨Nat.le_trans (UInt64.le_iff_toNat_le.1 hlo) hin.1, Nat.lt_of_lt_of_le hin.2 hhi⟩

end reserveCommitted

end WellFormed

end Tracker

namespace VirtualMemory

variable {π α : Type} {v : VirtualMemory π} {addr bytes : UInt64} {c : Category} {site : CallSite}

/-! ## What is recorded -/

section record

variable (htracking : v.tracking = true) {op : Op Tracker α}
include htracking

theorem record_of_ok {a : α} (h : (op.run v.tracker).result = .ok a) :
    ((record op).run v).state = { v with tracker := (op.run v.tracker).state } ∧
      ((record op).run v).result = .ok () := by
  have hzoom : ((Op.zoom (·.tracker) (fun v t => { v with tracker := t }) op).run v).result =
      .ok a := h
  unfold record
  rw [Op.state_get_bind, Op.result_get_bind, if_pos htracking, Op.state_bind_of_ok hzoom,
    Op.result_bind_of_ok hzoom]
  exact ⟨rfl, rfl⟩

theorem record_of_error {e : Stop} (h : (op.run v.tracker).result = .error e) :
    ((record op).run v).result = .error e := by
  have hzoom : ((Op.zoom (·.tracker) (fun v t => { v with tracker := t }) op).run v).result =
      .error e := h
  unfold record
  rw [Op.result_get_bind, if_pos htracking, Op.result_bind_of_error hzoom]

end record

/-- A mapping that succeeded was recorded where the host made it, below the top. -/
theorem mapBy_of_ok {call : Op π (HostResult UInt64)} (htracking : v.tracking = true)
    (hbytes : bytes ≠ 0) (h : ((mapBy bytes c site call).run v).result = .ok (.ok addr)) :
    addr.toNat + bytes.toNat < 2 ^ 64 ∧ ((mapBy bytes c site call).run v).state.tracker =
      ((Tracker.reserveCommitted addr bytes c site).run v.tracker).state := by
  unfold mapBy at h ⊢
  cases hcall : ((onHost call).run v).result with
  | error e =>
    rw [Op.result_bind_of_error hcall] at h
    cases h
  | ok answer =>
    rw [Op.result_bind_of_ok hcall] at h
    rw [Op.state_bind_of_ok hcall]
    cases answer with
    | error e => cases h
    | ok q =>
      have htracking' : ((onHost call).run v).state.tracking = true := htracking
      rcases Nat.lt_or_ge (q.toNat + bytes.toNat) (2 ^ 64) with hfits | hbig
      · obtain ⟨hstate, hresult⟩ := record_of_ok htracking'
          (Tracker.reserveCommitted_of_lt hbytes hfits c site ((onHost call).run v).state.tracker).2
        dsimp only at h ⊢
        rw [Op.result_bind_of_ok hresult] at h
        rw [Op.state_bind_of_ok hresult, hstate]
        obtain rfl := Except.ok.inj (Except.ok.inj h)
        exact ⟨hfits, rfl⟩
      · have hresult := record_of_error htracking'
          (Tracker.reserveCommitted_of_le hbytes hbig c site ((onHost call).run v).state.tracker).2
        dsimp only at h
        rw [Op.result_bind_of_error hresult] at h
        cases h

/-- A mapping at an address: a private view of a file, or shared memory backed by one. -/
inductive FixedMapping
  | view (shown : FileView)
  | shared (descriptor : Int)

variable [MemoryHost π]

/-- Map bytes at an address. -/
def FixedMapping.perform (m : FixedMapping) (addr bytes : UInt64) (c : Category) (site : CallSite) :
    Op (VirtualMemory π) (Except MemoryError UInt64) :=
  match m with
  | .view shown => map shown (some addr) bytes c site
  | .shared descriptor => mapToFileAt addr bytes descriptor c site

theorem FixedMapping.perform_of_ok {m : FixedMapping} (htracking : v.tracking = true)
    (h : ((m.perform addr bytes c site).run v).result = .ok (.ok addr)) :
    bytes ≠ 0 ∧ addr.toNat + bytes.toNat < 2 ^ 64 ∧
      ((m.perform addr bytes c site).run v).state.tracker =
        ((Tracker.reserveCommitted addr bytes c site).run v.tracker).state := by
  cases m with
  | view shown =>
    unfold perform map onSize at h ⊢
    dsimp only at h ⊢
    by_cases hbytes : bytes = 0
    · rw [if_pos hbytes] at h
      cases h
    · rw [if_neg hbytes] at h ⊢
      exact ⟨hbytes, mapBy_of_ok htracking hbytes h⟩
  | shared descriptor =>
    unfold perform mapToFileAt onRange at h ⊢
    cases hproblem : rangeProblem addr bytes with
    | some e =>
      simp only [hproblem] at h
      cases h
    | none =>
      simp only [hproblem] at h ⊢
      have hbytes : bytes ≠ 0 := by
        rintro rfl
        simp [rangeProblem] at hproblem
      exact ⟨hbytes, mapBy_of_ok htracking hbytes h⟩

/-- Four reserved pages. -/
def fourPages : VirtualMemory Recorder :=
  ((reserve 16384 false .gc ⟨"src/sites.rs", 9, 14⟩).run
    ⟨{}, {}, ⟨⟨4096⟩, 4096, false⟩, true⟩).state

/-- A view of a file on the second of them. -/
def secondPage : Op (VirtualMemory Recorder) (Except MemoryError UInt64) :=
  (FixedMapping.view ⟨7, 0, false, false⟩).perform 0x40001000 4096 .code ⟨"src/sites.rs", 9, 14⟩

end VirtualMemory

end HostServices
