import HostServices.Proofs.Op
import HostServices.Proofs.Region.Holding

/-!
# The form of tracked regions

Tracked regions are kept by their bases and do not overlap. On such a tracker the searches near an
address find what they are for (`mem_overlapping`, `entryAt_eq_some`), and each call leaves a
tracker of this form: so does every run of calls (`shaped_run`). Where the calls have sizes that are
not zero, committed ranges also have gaps between them (`wellFormed_run`).
-/

namespace HostServices

/-- A call on a tracker. -/
inductive TrackerCall
  | reserve (base size : UInt64) (c : Category) (site : CallSite)
  | reserveCommitted (base size : UInt64) (c : Category) (site : CallSite)
  | setCategory (addr : UInt64) (c : Category)
  | commit (addr size : UInt64)
  | uncommit (addr size : UInt64)
  | release (addr size : UInt64)

namespace TrackerCall

/-- Make a call. Calls without an answer of their own answer true. -/
def perform : TrackerCall → Op Tracker Bool
  | reserve base size c site => do Tracker.reserve base size c site; return true
  | reserveCommitted base size c site => do Tracker.reserveCommitted base size c site; return true
  | setCategory addr c => do modify (Tracker.setCategory addr c); return true
  | commit addr size => Tracker.commit addr size
  | uncommit addr size => Tracker.uncommit addr size
  | release addr size => Tracker.release addr size

/-- The size that a call gives, if it has one, is not zero. -/
def Sized : TrackerCall → Prop
  | reserve _ size _ _ | reserveCommitted _ size _ _ | commit _ size | uncommit _ size
  | release _ size => size ≠ 0
  | setCategory .. => True

/-- What calls one after another leave. A call that stops part way leaves what it has done. -/
def run (calls : List TrackerCall) (t : Tracker) : Tracker :=
  calls.foldl (fun t call => (call.perform.run t).state) t

end TrackerCall

namespace Tracker

/-- Each region is well formed and kept by its base, and no two overlap. -/
structure WellFormed (t : Tracker) : Prop where
  keyed : ∀ e ∈ t.regions.toList, e.2.base = e.1
  regions : ∀ e ∈ t.regions.toList, e.2.WellFormed
  disjoint : t.regions.toList.Pairwise fun e e' => e.2.finish ≤ e'.2.base

/-- Each region is of the form `Region.Shaped` and kept by its base, and no two overlap. -/
structure Shaped (gap : ℕ) (t : Tracker) : Prop where
  keyed : ∀ e ∈ t.regions.toList, e.2.base = e.1
  regions : ∀ e ∈ t.regions.toList, e.2.Shaped gap
  disjoint : t.regions.toList.Pairwise fun e e' => e.2.finish ≤ e'.2.base

variable {gap : ℕ} {t : Tracker} {e e' : UInt64 × Region} {addr start stop : UInt64}

theorem wellFormed_iff : t.WellFormed ↔ t.Shaped 1 :=
  ⟨fun h => ⟨h.keyed, fun e he => (h.regions e he).shaped, h.disjoint⟩,
    fun h => ⟨h.keyed, fun e he => Region.wellFormed_iff.2 (h.regions e he), h.disjoint⟩⟩

theorem WellFormed.shaped (h : t.WellFormed) : t.Shaped 1 :=
  wellFormed_iff.1 h

theorem shaped_empty : Shaped gap {} where
  keyed _ he := absurd he AddressMap.mem_empty
  regions _ he := absurd he AddressMap.mem_empty
  disjoint := List.Pairwise.nil

theorem wellFormed_empty : WellFormed {} :=
  wellFormed_iff.2 shaped_empty

namespace Shaped

/-- Of two regions, one ends before the other starts. -/
theorem eq_or_beside (h : t.Shaped gap) (he : e ∈ t.regions.toList) (he' : e' ∈ t.regions.toList) :
    e = e' ∨ e.2.finish.toNat ≤ e'.2.base.toNat ∨ e'.2.finish.toNat ≤ e.2.base.toNat := by
  have disjoint := AddressMap.pairwise_iff.1 h.disjoint
  rcases Nat.lt_trichotomy e.1.toNat e'.1.toNat with hlt | heq | hlt
  · exact .inr (.inl (UInt64.le_iff_toNat_le.1 (disjoint e he e' he' (UInt64.lt_iff_toNat_lt.2 hlt))))
  · exact .inl (AddressMap.eq_of_mem he he' (UInt64.toNat_inj.1 heq))
  · exact .inr (.inr (UInt64.le_iff_toNat_le.1 (disjoint e' he' e he (UInt64.lt_iff_toNat_lt.2 hlt))))

/-- Regions are of this form if each two of them are beside each other. -/
theorem of_mem (hkey : ∀ e ∈ t.regions.toList, e.2.base = e.1)
    (hwf : ∀ e ∈ t.regions.toList, e.2.Shaped gap)
    (hbeside : ∀ e ∈ t.regions.toList, ∀ e' ∈ t.regions.toList,
      e.2 = e'.2 ∨ e.2.finish.toNat ≤ e'.2.base.toNat ∨ e'.2.finish.toNat ≤ e.2.base.toNat) :
    t.Shaped gap where
  keyed := hkey
  regions := hwf
  disjoint := AddressMap.pairwise_iff.2 fun e he e' he' hlt => by
    have hlt := UInt64.lt_iff_toNat_lt.1 hlt
    rw [← hkey e he, ← hkey e' he'] at hlt
    have := (hwf e' he').base_lt_finish
    rcases hbeside e he e' he' with heq | h | h
    · rw [heq] at hlt; omega
    · exact UInt64.le_iff_toNat_le.2 h
    · omega

/-- Regions that reach beyond an address lie above those that do not. -/
theorem upward (h : t.Shaped gap) (start : UInt64) :
    t.regions.Upward fun e => decide (start < e.2.finish) := by
  intro e he e' he' hlt hs
  have := UInt64.le_iff_toNat_le.1 (AddressMap.pairwise_iff.1 h.disjoint e he e' he' hlt)
  have := (h.regions e' he').base_lt_finish
  have := UInt64.lt_iff_toNat_lt.1 (of_decide_eq_true hs)
  exact decide_eq_true (UInt64.lt_iff_toNat_lt.2 (by omega))

theorem mem_overlapping (h : t.Shaped gap) :
    e ∈ t.overlapping start stop ↔ e ∈ t.regions.toList ∧
      e.2.base.toNat < stop.toNat ∧ start.toNat < e.2.finish.toNat := by
  have key : e ∈ t.overlapping start stop ↔
      e ∈ t.regions.toList ∧ e.1 < stop ∧ decide (start < e.2.finish) = true :=
    AddressMap.mem_takeWhile_below (h.upward start)
  rw [key]
  refine and_congr_right fun he => ?_
  rw [decide_eq_true_eq, ← h.keyed e he, UInt64.lt_iff_toNat_lt, UInt64.lt_iff_toNat_lt]

/-- The region that a search near an address answers is the one that holds it. -/
theorem entryAt_eq_some (h : t.Shaped gap) :
    t.entryAt addr = some e ↔ e ∈ t.regions.toList ∧ addr.toNat ∈ e.2.holding.bytes := by
  have near : t.entryAt addr = some e ↔
      e ∈ t.regions.toList ∧ e.1 ≤ addr ∧ e.2.contains addr = true := by
    refine AddressMap.head?_upTo_filter fun x hx _ hax y hy hxy => ?_
    have hin := (Region.contains_iff.1 hax).2
    have := UInt64.le_iff_toNat_le.1 (AddressMap.pairwise_iff.1 h.disjoint x hx y hy hxy)
    rw [h.keyed y hy] at this
    exact UInt64.lt_iff_toNat_lt.2 (by omega)
  rw [near, Region.contains_iff]
  refine and_congr_right fun he => and_iff_right_of_imp fun hin => ?_
  rw [← h.keyed e he]
  exact UInt64.le_iff_toNat_le.2 hin.1

theorem entryAt_eq_none (h : t.Shaped gap) :
    t.entryAt addr = none ↔ ∀ e ∈ t.regions.toList, addr.toNat ∉ e.2.holding.bytes := by
  rw [Option.eq_none_iff_forall_ne_some]
  exact ⟨fun hn e he hin => hn e (h.entryAt_eq_some.2 ⟨he, hin⟩),
    fun hn e he => hn e (h.entryAt_eq_some.1 he).1 (h.entryAt_eq_some.1 he).2⟩

end Shaped

/-! ## Reserving -/

/-- The tracker with a reservation in the place of those it overlaps. -/
def reserved (t : Tracker) (base size : UInt64) (c : Category) (site : CallSite) : Tracker :=
  ⟨(t.regions.eraseAll ((t.overlapping base (base + size)).map (·.1))).insert base
    ⟨base, size, c, site, .empty⟩⟩

section reserve

variable {base size : UInt64} {c : Category} {site : CallSite}

theorem noteReplaced_unchanged (stop : UInt64) (old : Region) (t : Tracker) :
    ((noteReplaced base size stop old).run t).state = t ∧
      ((noteReplaced base size stop old).run t).result = .ok () := by
  unfold noteReplaced
  split <;> exact ⟨rfl, rfl⟩

/-- A reservation without bytes changes nothing. -/
theorem reserve_zero (base : UInt64) (c : Category) (site : CallSite) (t : Tracker) :
    ((reserve base 0 c site).run t).state = t ∧
      ((reserve base 0 c site).run t).result = .ok () := by
  unfold reserve
  rw [if_pos rfl]
  exact ⟨rfl, rfl⟩

theorem reserve_of_lt (hs : size ≠ 0) (h : base.toNat + size.toNat < 2 ^ 64) (c : Category)
    (site : CallSite) (t : Tracker) :
    ((reserve base size c site).run t).state = t.reserved base size c site ∧
      ((reserve base size c site).run t).result = .ok () := by
  have notes := Op.forM_unchanged (f := fun e : UInt64 × Region =>
      noteReplaced base size (base + size) e.2) (s := t)
    (fun e => noteReplaced_unchanged (base + size) e.2 t) (t.overlapping base (base + size))
  have sum := Op.result_add_of_lt h t
  unfold reserve
  rw [if_neg hs, Op.state_bind_of_ok sum, Op.result_bind_of_ok sum, Op.state_add,
    Op.state_get_bind, Op.result_get_bind, Op.state_bind_of_ok notes.2,
    Op.result_bind_of_ok notes.2, notes.1]
  exact ⟨rfl, rfl⟩

/-- A reservation that would end beyond the top is refused. -/
theorem reserve_of_le (hs : size ≠ 0) (h : 2 ^ 64 ≤ base.toNat + size.toNat) (c : Category)
    (site : CallSite) (t : Tracker) :
    ((reserve base size c site).run t).state = t ∧
      ((reserve base size c site).run t).result = .error (.fault .addOverflow) := by
  have sum := Op.result_add_of_le h t
  unfold reserve
  rw [if_neg hs, Op.state_bind_of_error sum, Op.result_bind_of_error sum]
  exact ⟨rfl, rfl⟩

theorem Shaped.mem_reserved (h : t.Shaped gap) (hs : size ≠ 0)
    (hfits : base.toNat + size.toNat < 2 ^ 64) :
    e ∈ (t.reserved base size c site).regions.toList ↔
      e = (base, ⟨base, size, c, site, .empty⟩) ∨ e ∈ t.regions.toList ∧
        (e.2.finish.toNat ≤ base.toNat ∨ base.toNat + size.toNat ≤ e.2.base.toNat) := by
  have hpos : 0 < size.toNat := UInt64.lt_iff_toNat_lt.1 (UInt64.pos_iff_ne_zero.2 hs)
  have hstop : (base + size).toNat = base.toNat + size.toNat := Word.toNat_add_of_lt hfits
  rw [reserved, AddressMap.mem_insert, AddressMap.mem_eraseAll]
  refine or_congr_right ⟨fun ⟨⟨he, hk⟩, _⟩ => ⟨he, ?_⟩, fun ⟨he, hside⟩ => ⟨⟨he, fun hk => ?_⟩, ?_⟩⟩
  · by_contra hcon
    exact hk (List.mem_map_of_mem (h.mem_overlapping.2 ⟨he, by omega, by omega⟩))
  · obtain ⟨e', he', hkey⟩ := List.mem_map.1 hk
    obtain ⟨he', h₁, h₂⟩ := h.mem_overlapping.1 he'
    obtain rfl := AddressMap.eq_of_mem he' he hkey
    omega
  · rw [← h.keyed e he]
    rintro rfl
    have := (h.regions e he).base_lt_finish
    omega

theorem shaped_new (hs : size ≠ 0) (hfits : base.toNat + size.toNat < 2 ^ 64) :
    Region.Shaped gap ⟨base, size, c, site, .empty⟩ :=
  .of_covered hfits (UInt64.pos_iff_ne_zero.2 hs) Region.spaced_empty (by
    rw [Region.covered_empty]; exact Set.empty_subset _)

theorem Shaped.reserved (h : t.Shaped gap) (hs : size ≠ 0)
    (hfits : base.toNat + size.toNat < 2 ^ 64) : (t.reserved base size c site).Shaped gap := by
  have hnew : Region.Shaped gap ⟨base, size, c, site, .empty⟩ := shaped_new hs hfits
  have hfin := hnew.toNat_finish
  refine .of_mem (fun e he => ?_) (fun e he => ?_) fun e he e' he' => ?_
  · rcases (h.mem_reserved hs hfits).1 he with rfl | ⟨he, -⟩
    · rfl
    · exact h.keyed e he
  · rcases (h.mem_reserved hs hfits).1 he with rfl | ⟨he, -⟩
    · exact hnew
    · exact h.regions e he
  · rcases (h.mem_reserved hs hfits).1 he with rfl | ⟨he, hside⟩ <;>
      rcases (h.mem_reserved hs hfits).1 he' with rfl | ⟨he', hside'⟩
    · exact .inl rfl
    · rw [hfin]; exact .inr hside'.symm
    · rw [hfin]; exact .inr hside
    · exact (h.eq_or_beside he he').imp_left (congrArg Prod.snd)

end reserve

/-! ## Releasing -/

/-- The tracker without the bytes of `[start, stop)`. -/
def released (t : Tracker) (start stop : UInt64) : Tracker :=
  ⟨(t.regions.eraseAll ((t.overlapping start stop).map (·.1))).insertAll
    (((t.overlapping start stop).flatMap fun e => remains start stop e.2).map fun r => (r.base, r))⟩

theorem run_release (addr size : UInt64) (t : Tracker) :
    ((release addr size).run t).state = t.released addr (Word.addSat addr size) ∧
      ((release addr size).run t).result =
        .ok (!(t.overlapping addr (Word.addSat addr size)).isEmpty) := by
  unfold release released
  rw [Op.state_get_bind, Op.result_get_bind]
  cases h : t.overlapping addr (Word.addSat addr size) with
  | nil => exact ⟨rfl, rfl⟩
  | cons e es => exact ⟨rfl, rfl⟩

theorem Shaped.mem_flatMap_remains (h : t.Shaped gap) :
    e ∈ ((t.overlapping start stop).flatMap fun e => remains start stop e.2).map
        (fun r => (r.base, r)) ↔
      e.2.base = e.1 ∧ ∃ x ∈ t.regions.toList, x.2.base.toNat < stop.toNat ∧
        start.toNat < x.2.finish.toNat ∧ e.2 ∈ remains start stop x.2 := by
  simp only [List.mem_map, List.mem_flatMap, h.mem_overlapping]
  constructor
  · rintro ⟨r, ⟨x, ⟨hx, h₁, h₂⟩, hr⟩, rfl⟩
    exact ⟨rfl, x, hx, h₁, h₂, hr⟩
  · rintro ⟨hkey, x, hx, h₁, h₂, hr⟩
    exact ⟨e.2, ⟨x, ⟨hx, h₁, h₂⟩, hr⟩, Prod.ext hkey rfl⟩

/-- What is left of one region is beside what is left of another. -/
theorem Shaped.remains_eq_or_beside (h : t.Shaped gap) (hle : start.toNat ≤ stop.toNat)
    {x x' : UInt64 × Region} {p p' : Region} (hx : x ∈ t.regions.toList)
    (hx' : x' ∈ t.regions.toList) (hp : p ∈ remains start stop x.2)
    (hp' : p' ∈ remains start stop x'.2) :
    p = p' ∨ p.finish.toNat ≤ p'.base.toNat ∨ p'.finish.toNat ≤ p.base.toNat := by
  have hr := Region.isRemains (h.regions x hx) hp
  have hr' := Region.isRemains (h.regions x' hx') hp'
  have := hr.base_le; have := hr.finish_le
  have := hr'.base_le; have := hr'.finish_le
  rcases h.eq_or_beside hx hx' with rfl | hb | hb
  · exact Region.remains_eq_or_beside (h.regions x hx) hle hp hp'
  · omega
  · omega

/-- A region after a release is one that lay beside the range, or what is left of one that
overlapped it. -/
theorem Shaped.mem_released (h : t.Shaped gap) (hle : start.toNat ≤ stop.toNat) :
    e ∈ (t.released start stop).regions.toList ↔
      (e ∈ t.regions.toList ∧
        (e.2.finish.toNat ≤ start.toNat ∨ stop.toNat ≤ e.2.base.toNat)) ∨
      e.2.base = e.1 ∧ ∃ x ∈ t.regions.toList, x.2.base.toNat < stop.toNat ∧
        start.toNat < x.2.finish.toNat ∧ e.2 ∈ remains start stop x.2 := by
  have distinct : ∀ e ∈ ((t.overlapping start stop).flatMap fun e => remains start stop e.2).map
      (fun r => (r.base, r)), ∀ e' ∈ ((t.overlapping start stop).flatMap fun e =>
        remains start stop e.2).map (fun r => (r.base, r)), e.1 = e'.1 → e = e' := by
    intro e he e' he' hkey
    obtain ⟨hb, x, hx, -, -, hp⟩ := h.mem_flatMap_remains.1 he
    obtain ⟨hb', x', hx', -, -, hp'⟩ := h.mem_flatMap_remains.1 he'
    have hn := (Region.isRemains (h.regions x hx) hp).shaped.base_lt_finish
    have hn' := (Region.isRemains (h.regions x' hx') hp').shaped.base_lt_finish
    have hk := congrArg UInt64.toNat ((hb.trans hkey).trans hb'.symm)
    rcases h.remains_eq_or_beside hle hx hx' hp hp' with heq | hs | hs
    · exact Prod.ext hkey heq
    · omega
    · omega
  rw [released, AddressMap.mem_insertAll distinct, AddressMap.mem_eraseAll, h.mem_flatMap_remains,
    or_comm]
  refine or_congr_left ⟨fun ⟨⟨he, hk⟩, _⟩ => ⟨he, ?_⟩, fun ⟨he, hside⟩ => ⟨⟨he, fun hk => ?_⟩, ?_⟩⟩
  · by_contra hcon
    exact hk (List.mem_map_of_mem (h.mem_overlapping.2 ⟨he, by omega, by omega⟩))
  · obtain ⟨e', he', hkey⟩ := List.mem_map.1 hk
    obtain ⟨he', h₁, h₂⟩ := h.mem_overlapping.1 he'
    obtain rfl := AddressMap.eq_of_mem he' he hkey
    omega
  · -- a piece with the key of `e` would be a part of another region inside `e`
    intro z hz hkey
    obtain ⟨hb, x, hx, h₁, h₂, hp⟩ := h.mem_flatMap_remains.1 hz
    have hr := Region.isRemains (h.regions x hx) hp
    have hzlt := hr.shaped.base_lt_finish
    have := hr.base_le; have := hr.finish_le
    have hk := congrArg UInt64.toNat ((hb.trans hkey).trans (h.keyed e he).symm)
    have := (h.regions e he).base_lt_finish
    rcases h.eq_or_beside hx he with rfl | hs | hs
    · omega
    · omega
    · omega

theorem Shaped.released (h : t.Shaped gap) (hle : start.toNat ≤ stop.toNat) :
    (t.released start stop).Shaped gap := by
  refine .of_mem (fun e he => ?_) (fun e he => ?_) fun e he e' he' => ?_
  · rcases (h.mem_released hle).1 he with ⟨he, -⟩ | ⟨hb, -⟩
    · exact h.keyed e he
    · exact hb
  · rcases (h.mem_released hle).1 he with ⟨he, -⟩ | ⟨-, x, hx, -, -, hp⟩
    · exact h.regions e he
    · exact (Region.isRemains (h.regions x hx) hp).shaped
  · rcases (h.mem_released hle).1 he with ⟨he, hs⟩ | ⟨-, x, hx, h₁, h₂, hp⟩ <;>
      rcases (h.mem_released hle).1 he' with ⟨he', hs'⟩ | ⟨-, x', hx', h₁', h₂', hp'⟩
    · exact (h.eq_or_beside he he').imp_left (congrArg Prod.snd)
    · have hr := Region.isRemains (h.regions x' hx') hp'
      have := hr.base_le; have := hr.finish_le
      rcases h.eq_or_beside he hx' with rfl | hb | hb <;> omega
    · have hr := Region.isRemains (h.regions x hx) hp
      have := hr.base_le; have := hr.finish_le
      rcases h.eq_or_beside hx he' with rfl | hb | hb <;> omega
    · exact h.remains_eq_or_beside hle hx hx' hp hp'

/-! ## Changing a region in place -/

section adjust

variable {f : Region → Region}

theorem adjust_of_none (h : t.entryAt addr = none) : t.adjust addr f = t := by
  rw [adjust, h]

theorem Shaped.mem_adjust (h : t.Shaped gap) {x : UInt64 × Region}
    (hx : t.entryAt addr = some x) :
    e ∈ (t.adjust addr f).regions.toList ↔
      e = (x.1, f x.2) ∨ e ∈ t.regions.toList ∧ addr.toNat ∉ e.2.holding.bytes := by
  rw [show t.adjust addr f = ⟨t.regions.insert x.1 (f x.2)⟩ by rw [adjust, hx],
    AddressMap.mem_insert]
  refine or_congr_right (and_congr_right fun he => not_congr ⟨fun hk => ?_, fun hin => ?_⟩)
  · rw [AddressMap.eq_of_mem he (h.entryAt_eq_some.1 hx).1 hk]
    exact (h.entryAt_eq_some.1 hx).2
  · rw [Option.some.inj (hx.symm.trans (h.entryAt_eq_some.2 ⟨he, hin⟩))]

/-- A change that keeps the extent of regions and leaves them well formed. -/
theorem Shaped.adjust (h : t.Shaped gap) (hbase : ∀ r, (f r).base = r.base)
    (hfinish : ∀ r, (f r).finish = r.finish)
    (hwf : ∀ r : Region, r.Shaped gap → addr.toNat ∈ r.holding.bytes → (f r).Shaped gap) :
    (t.adjust addr f).Shaped gap := by
  cases hx : t.entryAt addr with
  | none => rwa [adjust_of_none hx]
  | some x =>
    obtain ⟨hmem, hin⟩ := h.entryAt_eq_some.1 hx
    refine .of_mem (fun e he => ?_) (fun e he => ?_) fun e he e' he' => ?_
    · rcases (h.mem_adjust hx).1 he with rfl | ⟨he, -⟩
      · exact (hbase x.2).trans (h.keyed x hmem)
      · exact h.keyed e he
    · rcases (h.mem_adjust hx).1 he with rfl | ⟨he, -⟩
      · exact hwf x.2 (h.regions x hmem) hin
      · exact h.regions e he
    · rcases (h.mem_adjust hx).1 he with rfl | ⟨he, hout⟩ <;>
        rcases (h.mem_adjust hx).1 he' with rfl | ⟨he', hout'⟩
      · exact .inl rfl
      · rw [hbase, hfinish]
        exact .inr ((h.eq_or_beside hmem he').resolve_left fun heq => hout' (heq ▸ hin))
      · rw [hbase, hfinish]
        exact .inr ((h.eq_or_beside he hmem).resolve_left fun heq => hout (heq ▸ hin))
      · exact (h.eq_or_beside he he').imp_left (congrArg Prod.snd)

theorem run_commit (addr size : UInt64) (t : Tracker) :
    ((commit addr size).run t).state = t.adjust addr (·.commit addr (Word.addSat addr size)) ∧
      ((commit addr size).run t).result = .ok (t.entryAt addr).isSome := by
  unfold commit
  rw [Op.state_get_bind, Op.result_get_bind]
  cases h : t.entryAt addr with
  | none => rw [adjust_of_none h]; exact ⟨rfl, rfl⟩
  | some x => exact ⟨rfl, rfl⟩

theorem run_uncommit (addr size : UInt64) (t : Tracker) :
    ((uncommit addr size).run t).state = t.adjust addr (·.uncommit addr (Word.addSat addr size)) ∧
      ((uncommit addr size).run t).result = .ok (t.entryAt addr).isSome :=
  ⟨rfl, rfl⟩

end adjust

/-! ## Calls -/

section reserveCommitted

variable {base size : UInt64}

theorem reserveCommitted_zero (base : UInt64) (c : Category) (site : CallSite) (t : Tracker) :
    ((reserveCommitted base 0 c site).run t).state = ((commit base 0).run t).state ∧
      ((reserveCommitted base 0 c site).run t).result = .ok () := by
  obtain ⟨hstate, hresult⟩ := reserve_zero base c site t
  have hcommit := (run_commit base 0 t).2
  unfold reserveCommitted
  rw [Op.state_bind_of_ok hresult, Op.result_bind_of_ok hresult, hstate,
    Op.state_bind_of_ok hcommit, Op.result_bind_of_ok hcommit]
  exact ⟨rfl, rfl⟩

theorem reserveCommitted_of_lt (hs : size ≠ 0) (h : base.toNat + size.toNat < 2 ^ 64)
    (c : Category) (site : CallSite) (t : Tracker) :
    ((reserveCommitted base size c site).run t).state =
        ((commit base size).run (t.reserved base size c site)).state ∧
      ((reserveCommitted base size c site).run t).result = .ok () := by
  obtain ⟨hstate, hresult⟩ := reserve_of_lt hs h c site t
  have hcommit := (run_commit base size (t.reserved base size c site)).2
  unfold reserveCommitted
  rw [Op.state_bind_of_ok hresult, Op.result_bind_of_ok hresult, hstate,
    Op.state_bind_of_ok hcommit, Op.result_bind_of_ok hcommit]
  exact ⟨rfl, rfl⟩

theorem reserveCommitted_of_le (hs : size ≠ 0) (h : 2 ^ 64 ≤ base.toNat + size.toNat)
    (c : Category) (site : CallSite) (t : Tracker) :
    ((reserveCommitted base size c site).run t).state = t ∧
      ((reserveCommitted base size c site).run t).result = .error (.fault .addOverflow) := by
  obtain ⟨hstate, hresult⟩ := reserve_of_le hs h c site t
  unfold reserveCommitted
  rw [Op.state_bind_of_error hresult, Op.result_bind_of_error hresult]
  exact ⟨hstate, rfl⟩

/-- A reservation as a call fits and is there afterwards, or is refused and changes nothing. -/
theorem perform_reserve_cases (hs : size ≠ 0) (base : UInt64) (c : Category) (site : CallSite)
    (t : Tracker) :
    (base.toNat + size.toNat < 2 ^ 64 ∧
        ((TrackerCall.reserve base size c site).perform.run t).state = t.reserved base size c site ∧
        ((TrackerCall.reserve base size c site).perform.run t).result = .ok true) ∨
      (¬ base.toNat + size.toNat < 2 ^ 64 ∧
        ((TrackerCall.reserve base size c site).perform.run t).state = t ∧
        ((TrackerCall.reserve base size c site).perform.run t).result =
          .error (.fault .addOverflow)) := by
  rcases Nat.lt_or_ge (base.toNat + size.toNat) (2 ^ 64) with hfits | hbig
  · obtain ⟨hstate, hresult⟩ := reserve_of_lt hs hfits c site t
    rw [TrackerCall.perform, Op.state_bind_of_ok hresult, Op.result_bind_of_ok hresult]
    exact .inl ⟨hfits, hstate, rfl⟩
  · obtain ⟨hstate, hresult⟩ := reserve_of_le hs hbig c site t
    rw [TrackerCall.perform, Op.state_bind_of_error hresult, Op.result_bind_of_error hresult]
    exact .inr ⟨Nat.not_lt.2 hbig, hstate, rfl⟩

theorem perform_reserveCommitted_cases (hs : size ≠ 0) (base : UInt64) (c : Category)
    (site : CallSite) (t : Tracker) :
    (base.toNat + size.toNat < 2 ^ 64 ∧
        ((TrackerCall.reserveCommitted base size c site).perform.run t).state =
          ((commit base size).run (t.reserved base size c site)).state ∧
        ((TrackerCall.reserveCommitted base size c site).perform.run t).result = .ok true) ∨
      (¬ base.toNat + size.toNat < 2 ^ 64 ∧
        ((TrackerCall.reserveCommitted base size c site).perform.run t).state = t ∧
        ((TrackerCall.reserveCommitted base size c site).perform.run t).result =
          .error (.fault .addOverflow)) := by
  rcases Nat.lt_or_ge (base.toNat + size.toNat) (2 ^ 64) with hfits | hbig
  · obtain ⟨hstate, hresult⟩ := reserveCommitted_of_lt hs hfits c site t
    rw [TrackerCall.perform, Op.state_bind_of_ok hresult, Op.result_bind_of_ok hresult]
    exact .inl ⟨hfits, hstate, rfl⟩
  · obtain ⟨hstate, hresult⟩ := reserveCommitted_of_le hs hbig c site t
    rw [TrackerCall.perform, Op.state_bind_of_error hresult, Op.result_bind_of_error hresult]
    exact .inr ⟨Nat.not_lt.2 hbig, hstate, rfl⟩

end reserveCommitted

/-- A range that starts in a region is not empty, even where its end is held at the top. -/
theorem lt_addSat {r : Region} {size : UInt64} (hs : size ≠ 0)
    (hin : addr.toNat ∈ r.holding.bytes) : addr.toNat < (Word.addSat addr size).toNat := by
  have hpos : 0 < size.toNat := UInt64.lt_iff_toNat_lt.1 (UInt64.pos_iff_ne_zero.2 hs)
  have hlt : addr.toNat < r.finish.toNat := hin.2
  have := r.finish.toNat_lt
  rw [Word.toNat_addSat]
  omega

theorem le_addSat (addr size : UInt64) : addr.toNat ≤ (Word.addSat addr size).toNat := by
  have := addr.toNat_lt
  rw [Word.toNat_addSat]
  omega

theorem Shaped.commit (h : t.Shaped gap) (hgap : gap ≤ 1) (addr size : UInt64) :
    ((commit addr size).run t).state.Shaped gap := by
  rw [(run_commit addr size t).1]
  exact h.adjust (fun _ => Region.base_commit) (fun _ => Region.finish_commit)
    fun r hr _ => hr.commit hgap _ _

/-- What is uncommitted from an address in a region on is as long as the gaps, or the ranges have
none. -/
theorem add_gap_le_addSat {size : UInt64} (hgap : gap ≤ 1) (hs : 0 < gap → size ≠ 0) {r : Region}
    (hin : addr.toNat ∈ r.holding.bytes) : addr.toNat + gap ≤ (Word.addSat addr size).toNat := by
  rcases Nat.eq_zero_or_pos gap with rfl | hpos
  · exact le_addSat addr size
  · have := lt_addSat (hs hpos) hin
    omega

/-- Each call keeps the form of the regions; where committed ranges have gaps between them, a size
that is not zero keeps those too. -/
theorem Shaped.perform (h : t.Shaped gap) (hgap : gap ≤ 1) {call : TrackerCall}
    (hs : 0 < gap → call.Sized) : (call.perform.run t).state.Shaped gap := by
  cases call with
  | reserve base size c site =>
    rcases eq_or_ne size 0 with rfl | hne
    · obtain ⟨hstate, hresult⟩ := reserve_zero base c site t
      rw [TrackerCall.perform, Op.state_bind_of_ok hresult, hstate]
      exact h
    obtain ⟨hfits, hstate, -⟩ | ⟨-, hstate, -⟩ := perform_reserve_cases hne base c site t
    · rw [hstate]
      exact h.reserved hne hfits
    · rw [hstate]
      exact h
  | reserveCommitted base size c site =>
    rcases eq_or_ne size 0 with rfl | hne
    · obtain ⟨hstate, hresult⟩ := reserveCommitted_zero base c site t
      rw [TrackerCall.perform, Op.state_bind_of_ok hresult, hstate]
      exact h.commit hgap base 0
    obtain ⟨hfits, hstate, -⟩ | ⟨-, hstate, -⟩ := perform_reserveCommitted_cases hne base c site t
    · rw [hstate]
      exact (h.reserved hne hfits).commit hgap base size
    · rw [hstate]
      exact h
  | setCategory addr c =>
    exact h.adjust (fun _ => rfl) (fun _ => rfl) fun r hr _ =>
      .of_covered (r := { r with category := c }) hr.fits hr.size_pos hr.spaced hr.covered_subset
  | commit addr size => exact h.commit hgap addr size
  | uncommit addr size =>
    show ((uncommit addr size).run t).state.Shaped gap
    rw [(run_uncommit addr size t).1]
    exact h.adjust (fun _ => rfl) (fun _ => rfl) fun r hr hin =>
      hr.uncommit (add_gap_le_addSat hgap hs hin)
  | release addr size =>
    show ((release addr size).run t).state.Shaped gap
    rw [(run_release addr size t).1]
    exact h.released (le_addSat addr size)

theorem Shaped.run (h : t.Shaped gap) (hgap : gap ≤ 1) {calls : List TrackerCall}
    (hs : 0 < gap → ∀ call ∈ calls, call.Sized) : (TrackerCall.run calls t).Shaped gap := by
  induction calls generalizing t with
  | nil => exact h
  | cons call calls ih =>
    exact ih (h.perform hgap fun hpos => hs hpos call List.mem_cons_self) fun hpos c hc =>
      hs hpos c (List.mem_cons_of_mem _ hc)

/-- Calls of any sizes, also of none, leave committed ranges that do not overlap. -/
theorem shaped_run (calls : List TrackerCall) : (TrackerCall.run calls {}).Shaped 0 :=
  shaped_empty.run (Nat.zero_le 1) fun h => absurd h (Nat.lt_irrefl 0)

theorem WellFormed.reserved (h : t.WellFormed) {base size : UInt64} {c : Category}
    {site : CallSite} (hs : size ≠ 0) (hfits : base.toNat + size.toNat < 2 ^ 64) :
    (t.reserved base size c site).WellFormed :=
  wellFormed_iff.2 (h.shaped.reserved hs hfits)

theorem WellFormed.perform (h : t.WellFormed) {call : TrackerCall} (hs : call.Sized) :
    (call.perform.run t).state.WellFormed :=
  wellFormed_iff.2 (h.shaped.perform le_rfl fun _ => hs)

theorem WellFormed.run (h : t.WellFormed) {calls : List TrackerCall}
    (hs : ∀ call ∈ calls, call.Sized) : (TrackerCall.run calls t).WellFormed :=
  wellFormed_iff.2 (h.shaped.run le_rfl fun _ => hs)

/-- Whatever calls are made, regions stay well formed, kept by their bases and beside each other. A
reservation that would end beyond the top is refused and changes nothing. -/
theorem wellFormed_run (calls : List TrackerCall) (hs : ∀ call ∈ calls, call.Sized) :
    (TrackerCall.run calls {}).WellFormed :=
  wellFormed_empty.run hs

/-- A run that merges commits, punches a hole into them and splits the region. -/
def splittingRun : List TrackerCall :=
  [.reserve 0x1000 0x8000 .javaHeap ⟨"src/sites.rs", 9, 14⟩, .commit 0x1000 0x2000,
    .commit 0x3000 0x4000, .uncommit 0x2000 0x800, .release 0x4000 0x1000]

theorem wellFormed_splittingRun :
    (∀ call ∈ splittingRun, call.Sized) ∧ (TrackerCall.run splittingRun {}).WellFormed := by
  have hs : ∀ call ∈ splittingRun, call.Sized := by simp [splittingRun, TrackerCall.Sized]
  exact ⟨hs, wellFormed_run splittingRun hs⟩

end Tracker

end HostServices
