import HostServices.Ledger.Report
import HostServices.Proofs.AddressMap
import HostServices.Proofs.Counter
import Mathlib.Algebra.Order.BigOperators.Group.List
import Mathlib.Algebra.Order.Group.Nat

/-!
# Summaries and site tables that tally blocks

A summary tallies a list of blocks when each of its counters does so with the blocks that it is
for, and a site table when moreover each block's marker leads to the entry of its requester. The
order of the blocks plays no part. Charging a block adds it to the list, discharging one takes it
from there.
-/

namespace HostServices

variable {b : LiveBlock} {bs bs' : List LiveBlock} {c : Category} {n : UInt64}

/-! ## Room -/

/-- The blocks and one more of `n` bytes can be counted in words. -/
structure LiveBlock.Room (bs : List LiveBlock) (n : UInt64) : Prop where
  count : bs.length + 1 < 2 ^ 64
  bytes : (bs.map (·.size.toNat)).sum + n.toNat < 2 ^ 64

open LiveBlock (Room)

/-- There is room in a counter that tallies some of the blocks. -/
theorem LiveBlock.Room.fits {counter : Counter} (h : Room bs n) (hsub : bs'.Sublist bs)
    (hcounter : counter.Tallies (bs'.map (·.size))) : counter.Fits n := by
  have hlength := hsub.length_le
  have hsum := (hsub.map (·.size.toNat)).sum_le_sum fun _ _ => Nat.zero_le _
  obtain ⟨hcount, hbytes⟩ := h
  refine hcounter.fits ?_ ?_
  · rw [List.length_map]
    omega
  · rw [List.map_map]
    exact Nat.lt_of_le_of_lt (Nat.add_le_add_right hsum _) hbytes

/-! ## Categories -/

namespace MallocSummary

variable {s : MallocSummary}

/-- There is room in both counters for one more allocation. -/
structure Fits (s : MallocSummary) (c : Category) (n : UInt64) : Prop where
  category : (s.category c).Fits n
  total : s.total.Fits n

/-- Neither counter goes below zero when an allocation is discharged. -/
structure Covers (s : MallocSummary) (c : Category) (n : UInt64) : Prop where
  category : (s.category c).Covers n
  total : s.total.Covers n

/-- The summary with one more allocation. -/
def charge (s : MallocSummary) (c : Category) (n : UInt64) : MallocSummary :=
  { s.setCategory c ((s.category c).charge n) with total := s.total.charge n }

theorem allocate_of_fits (h : s.Fits c n) :
    ((allocate c n).run s).state = s.charge c n ∧ ((allocate c n).run s).result = .ok () := by
  obtain ⟨hcategory, hcategory'⟩ := Counter.allocate_of_fits h.category
  obtain ⟨htotal, htotal'⟩ := Counter.allocate_of_fits h.total
  have hfirst : ((Op.zoom (·.category c) (fun s k => setCategory s c k)
      (Counter.allocate n)).run s).result = .ok () := hcategory'
  unfold allocate
  rw [Op.state_bind_of_ok hfirst, Op.result_bind_of_ok hfirst, Op.state_zoom, Op.state_zoom,
    Op.result_zoom, hcategory]
  exact ⟨congrArg _ htotal, htotal'⟩

theorem fits_of_allocate (h : ((allocate c n).run s).result = .ok ()) : s.Fits c n := by
  unfold allocate at h
  cases hcategory : ((Counter.allocate n).run (s.category c)).result with
  | error e =>
    have hfirst : ((Op.zoom (·.category c) (fun s k => setCategory s c k)
        (Counter.allocate n)).run s).result = .error e := hcategory
    rw [Op.result_bind_of_error hfirst] at h
    cases h
  | ok u =>
    have hfirst : ((Op.zoom (·.category c) (fun s k => setCategory s c k)
        (Counter.allocate n)).run s).result = .ok () := hcategory
    rw [Op.result_bind_of_ok hfirst] at h
    exact ⟨Counter.fits_of_allocate hcategory, Counter.fits_of_allocate h⟩

/-- A summary that stands for these blocks. -/
structure Tallies (s : MallocSummary) (bs : List LiveBlock) : Prop where
  category (c : Category) : (s.category c).Tallies ((bs.filter (·.category = c)).map (·.size))
  total : s.total.Tallies (bs.map (·.size))

theorem tallies_empty : Tallies {} [] :=
  ⟨fun _ => Counter.tallies_empty, Counter.tallies_empty⟩

namespace Tallies

theorem perm (h : s.Tallies bs) (hp : bs.Perm bs') : s.Tallies bs' :=
  ⟨fun c => (h.category c).perm ((hp.filter _).map _), h.total.perm (hp.map _)⟩

theorem charge (h : s.Tallies bs) (hf : s.Fits b.category b.size) :
    (s.charge b.category b.size).Tallies (b :: bs) where
  category c := by
    show (if c = b.category then (s.category b.category).charge b.size else s.category c).Tallies _
    by_cases hc : c = b.category
    · rw [if_pos hc, hc, List.filter_cons_of_pos (by simp)]
      exact (h.category b.category).charge hf.category
    · rw [if_neg hc, List.filter_cons_of_neg (by simpa using Ne.symm hc)]
      exact h.category c
  total := h.total.charge hf.total

theorem deallocate (h : s.Tallies (b :: bs)) : (s.deallocate b.category b.size).Tallies bs where
  category c := by
    show (if c = b.category then (s.category b.category).deallocate b.size
      else s.category c).Tallies _
    have hcategory := h.category c
    by_cases hc : c = b.category
    · rw [hc, List.filter_cons_of_pos (by simp)] at hcategory
      rw [if_pos hc, hc]
      exact hcategory.deallocate
    · rw [List.filter_cons_of_neg (by simpa using Ne.symm hc)] at hcategory
      rw [if_neg hc]
      exact hcategory
  total := h.total.deallocate

/-- Each tallied block is covered. -/
theorem covers (h : s.Tallies bs) (hb : b ∈ bs) : s.Covers b.category b.size where
  category := (h.category b.category).covers
    (List.mem_map_of_mem (List.mem_filter.2 ⟨hb, decide_eq_true rfl⟩))
  total := h.total.covers (List.mem_map_of_mem hb)

theorem fits (h : s.Tallies bs) (hroom : Room bs n) (c : Category) : s.Fits c n where
  category := hroom.fits List.filter_sublist (h.category c)
  total := hroom.fits (List.Sublist.refl bs) h.total

end Tallies

end MallocSummary

/-! ## Requesters -/

namespace SiteTable

open LeakRecord (keyOf)

variable {t : SiteTable} {key key' : SiteKey} {i j : Nat} {counter : Counter} {f : Counter → Counter}

/-- The table with one counter changed. -/
def adjust (t : SiteTable) (i : Nat) (f : Counter → Counter) : SiteTable :=
  ⟨t.entries.modify i fun e => (e.1, f e.2)⟩

theorem getElem?_adjust : (t.adjust i f).entries[j]? =
    (t.entries[j]?).map fun e => (e.1, if i = j then f e.2 else e.2) := by
  rw [adjust, List.getElem?_modify]
  split <;> rfl

theorem keys_adjust : (t.adjust i f).entries.map (·.1) = t.entries.map (·.1) := by
  refine List.ext_getElem? fun j => ?_
  rw [List.getElem?_map, getElem?_adjust, List.getElem?_map, Option.map_map]
  rfl

theorem deallocate_eq {marker : UInt32} (h : marker.toNat = i + 1) :
    t.deallocate marker n = t.adjust i (·.deallocate n) := by
  unfold deallocate
  rw [h]
  rfl

/-- The table has an entry for the key at the place it is given. -/
theorem getElem?_place (t : SiteTable) (key : SiteKey) :
    ∃ counter, (t.place key).1.entries[(t.place key).2]? = some (key, counter) := by
  unfold place
  cases hi : t.entries.findIdx? (·.1 = key) with
  | none => exact ⟨{}, List.getElem?_concat_length⟩
  | some i =>
    obtain ⟨hlt, hkey, -⟩ := List.findIdx?_eq_some_iff_getElem.1 hi
    refine ⟨t.entries[i].2, ?_⟩
    rw [List.getElem?_eq_getElem hlt, ← of_decide_eq_true hkey]

theorem counterAt_of_getElem? (hi : t.entries[i]? = some (key, counter)) :
    t.counterAt i = counter := by
  rw [counterAt, hi]
  rfl

/-- There is room in the requester's counter for one more allocation. -/
def Fits (t : SiteTable) (key : SiteKey) (n : UInt64) : Prop :=
  ((t.place key).1.counterAt (t.place key).2).Fits n

/-- The table with one more allocation, and the requester's marker. -/
def charge (t : SiteTable) (key : SiteKey) (n : UInt64) : SiteTable × UInt32 :=
  let (t, i) := t.place key
  (t.setCounter i ((t.counterAt i).charge n), UInt32.ofNat (i + 1))

/-- A place that has a marker is found by it. -/
theorem checked_slot (hplace : i + 1 < 2 ^ 32) :
    Checked.sub (UInt32.ofNat (i + 1)).toUInt64 1 = .ok (UInt64.ofNat i) := by
  have hmarker : (UInt32.ofNat (i + 1)).toUInt64.toNat = i + 1 := by
    rw [UInt32.toNat_toUInt64, UInt32.toNat_ofNat_of_lt' hplace]
  have hone : (1 : UInt64) ≤ (UInt32.ofNat (i + 1)).toUInt64 := by
    rw [UInt64.le_iff_toNat_le, hmarker]
    exact Nat.le_add_left 1 i
  have hslot : (UInt32.ofNat (i + 1)).toUInt64 - 1 = UInt64.ofNat i := by
    rw [← UInt64.toNat_inj, UInt64.toNat_sub_of_le _ _ hone, hmarker,
      UInt64.toNat_ofNat_of_lt' (show i < 2 ^ 64 by omega)]
    rfl
  rw [Checked.sub, Word.sub?, if_pos hone, hslot]
  rfl

/-- Charge the counter at a place and answer the marker of the place. -/
def chargeAt (i : Nat) (n : UInt64) : Op SiteTable UInt32 := do
  Op.zoom (·.counterAt i) (fun t k => t.setCounter i k) (Counter.allocate n)
  return UInt32.ofNat (i + 1)

theorem run_allocate (hplace : (t.place key).2 + 1 < 2 ^ 32) :
    (allocate key n).run t = (chargeAt (t.place key).2 n).run (t.place key).1 := by
  have hslot : (UInt64.ofNat (t.place key).2).toNat = (t.place key).2 :=
    UInt64.toNat_ofNat_of_lt' (show (t.place key).2 < 2 ^ 64 by omega)
  have hcheck (t' : SiteTable) :
      (Op.check (Checked.sub (UInt32.ofNat ((t.place key).2 + 1)).toUInt64 1)).run t' =
        ⟨.ok (UInt64.ofNat (t.place key).2), t', []⟩ := by
    rw [checked_slot hplace]
    rfl
  unfold allocate
  rw [Op.run_get_bind]
  show (Op.check (Checked.sub (UInt32.ofNat ((t.place key).2 + 1)).toUInt64 1) >>= fun slot =>
    Op.zoom (·.counterAt slot.toNat) (fun t k => t.setCounter slot.toNat k) (Counter.allocate n) >>=
      fun _ => (pure (UInt32.ofNat ((t.place key).2 + 1)) : Op SiteTable UInt32)).run
        (t.place key).1 = _
  rw [Op.run_bind_of_run (hcheck _), hslot]
  rfl

theorem allocate_of_fits (h : t.Fits key n) (hplace : (t.place key).2 + 1 < 2 ^ 32) :
    ((allocate key n).run t).state = (t.charge key n).1 ∧
      ((allocate key n).run t).result = .ok (t.charge key n).2 := by
  obtain ⟨hstate, hresult⟩ := Counter.allocate_of_fits h
  have hzoom : ((Op.zoom (·.counterAt (t.place key).2)
      (fun t' k => setCounter t' (t.place key).2 k) (Counter.allocate n)).run (t.place key).1).result =
        .ok () := hresult
  rw [run_allocate hplace, chargeAt, Op.state_bind_of_ok hzoom, Op.result_bind_of_ok hzoom,
    Op.state_pure, Op.result_pure, Op.state_zoom, hstate]
  exact ⟨rfl, rfl⟩

/-- A place is among the entries, or the next one. -/
theorem place_le (t : SiteTable) (key : SiteKey) : (t.place key).2 ≤ t.entries.length := by
  unfold place
  cases hi : t.entries.findIdx? (·.1 = key) with
  | none => exact Nat.le_refl _
  | some i => exact Nat.le_of_lt (List.findIdx?_eq_some_iff_getElem.1 hi).1

/-- The entry after those that have markers has none, and its counter is not found. -/
theorem checked_slot_none (h : i + 1 = 2 ^ 32) :
    Checked.sub (UInt32.ofNat (i + 1)).toUInt64 1 = .error .subOverflow := by
  rw [h]
  rfl

/-- While each entry has a marker, an allocation is charged only to a requester with a marker. -/
theorem fits_of_allocate {marker : UInt32} (hlength : t.entries.length < 2 ^ 32)
    (h : ((allocate key n).run t).result = .ok marker) :
    t.Fits key n ∧ (t.place key).2 + 1 < 2 ^ 32 := by
  have hle := place_le t key
  by_cases hplace : (t.place key).2 + 1 < 2 ^ 32
  · refine ⟨?_, hplace⟩
    rw [run_allocate hplace, chargeAt] at h
    cases hcounter : ((Counter.allocate n).run
        ((t.place key).1.counterAt (t.place key).2)).result with
    | error e =>
      have hzoom : ((Op.zoom (·.counterAt (t.place key).2)
          (fun t' k => setCounter t' (t.place key).2 k) (Counter.allocate n)).run
            (t.place key).1).result = .error e := hcounter
      rw [Op.result_bind_of_error hzoom] at h
      cases h
    | ok u => exact Counter.fits_of_allocate hcounter
  · have hcheck : ((Op.check (Checked.sub (UInt32.ofNat ((t.place key).2 + 1)).toUInt64 1)).run
        (t.place key).1).result = .error (.fault .subOverflow) := by
      rw [checked_slot_none (by omega)]
      rfl
    unfold allocate at h
    rw [Op.result_get_bind, Op.result_set_bind] at h
    exact absurd (h.symm.trans (Op.result_bind_of_error hcheck)) nofun

/-! Each entry goes on having a marker. -/

theorem length_charge (hlength : t.entries.length < 2 ^ 32) (hplace : (t.place key).2 + 1 < 2 ^ 32) :
    (t.charge key n).1.entries.length < 2 ^ 32 := by
  show ((t.place key).1.entries.modify _ _).length < 2 ^ 32
  rw [List.length_modify]
  unfold place at hplace ⊢
  cases hi : t.entries.findIdx? (·.1 = key) with
  | none =>
    rw [hi] at hplace
    rw [List.length_append]
    exact hplace
  | some i => exact hlength

theorem length_deallocate (t : SiteTable) (marker : UInt32) (n : UInt64) :
    (t.deallocate marker n).entries.length = t.entries.length := by
  unfold deallocate
  split
  · rfl
  · exact List.length_modify ..

/-- A table that stands for these blocks. -/
structure Tallies (t : SiteTable) (bs : List LiveBlock) : Prop where
  distinct : (t.entries.map (·.1)).Nodup
  entry : ∀ e ∈ t.entries, e.2.Tallies ((bs.filter (keyOf · = e.1)).map (·.size))
  /-- A block's marker is the place of its requester, counted from one. -/
  marked : ∀ b ∈ bs, ∃ i counter, b.marker.toNat = i + 1 ∧ t.entries[i]? = some (keyOf b, counter)

theorem tallies_empty : Tallies {} [] where
  distinct := List.nodup_nil
  entry _ he := nomatch he
  marked _ hb := nomatch hb

namespace Tallies

theorem perm (h : t.Tallies bs) (hp : bs.Perm bs') : t.Tallies bs' where
  distinct := h.distinct
  entry e he := (h.entry e he).perm ((hp.filter _).map _)
  marked b hb := h.marked b (hp.mem_iff.2 hb)

/-- Two places have different keys. -/
theorem eq_of_key (h : t.Tallies bs) {e e' : SiteKey × Counter} (he : t.entries[i]? = some e)
    (he' : t.entries[j]? = some e') (hk : e.1 = e'.1) : i = j := by
  have hlt : i < (t.entries.map (·.1)).length := by
    rw [List.length_map]
    exact (List.getElem?_eq_some_iff.1 he).1
  refine (List.getElem?_inj hlt h.distinct).1 ?_
  rw [List.getElem?_map, List.getElem?_map, he, he', Option.map_some, Option.map_some, hk]

/-- Changing the counter of one requester keeps the others' tallies. -/
theorem adjust (h : t.Tallies bs) (hi : t.entries[i]? = some (key, counter))
    (hf : (f counter).Tallies ((bs'.filter (keyOf · = key)).map (·.size)))
    (hother : ∀ key' ≠ key, bs'.filter (keyOf · = key') = bs.filter (keyOf · = key'))
    (hmarked : ∀ b ∈ bs', b ∈ bs ∨ b.marker.toNat = i + 1 ∧ keyOf b = key) :
    (t.adjust i f).Tallies bs' where
  distinct := by
    rw [keys_adjust]
    exact h.distinct
  entry e he := by
    obtain ⟨j, hj⟩ := List.mem_iff_getElem?.1 he
    rw [getElem?_adjust] at hj
    obtain ⟨e', he', rfl⟩ := Option.map_eq_some_iff.1 hj
    by_cases hij : i = j
    · subst hij
      obtain rfl := Option.some.inj (hi.symm.trans he')
      rw [if_pos rfl]
      exact hf
    · rw [if_neg hij, hother e'.1 fun hkey => hij (h.eq_of_key hi he' hkey.symm)]
      exact h.entry e' (List.mem_of_getElem? he')
  marked b hb := by
    rcases hmarked b hb with hb | ⟨hm, hkey⟩
    · obtain ⟨j, counter', hm, hj⟩ := h.marked b hb
      exact ⟨j, _, hm, by rw [getElem?_adjust, hj]; rfl⟩
    · exact ⟨i, _, hm, by rw [getElem?_adjust, hi, hkey]; rfl⟩

/-- A place for a requester without blocks changes nothing. -/
theorem place (h : t.Tallies bs) (key : SiteKey) : (t.place key).1.Tallies bs := by
  unfold SiteTable.place
  cases hi : t.entries.findIdx? (·.1 = key) with
  | some i => exact h
  | none =>
    have hnew : ∀ e ∈ t.entries, e.1 ≠ key := fun e he =>
      of_decide_eq_false (List.findIdx?_eq_none_iff.1 hi e he)
    refine ⟨?_, fun e he => ?_, fun b hb => ?_⟩
    · rw [List.map_append, List.nodup_append]
      refine ⟨h.distinct, List.pairwise_singleton .., ?_⟩
      simpa using hnew
    · rcases List.mem_append.1 he with he | he
      · exact h.entry e he
      · obtain rfl := List.mem_singleton.1 he
        have hnone : bs.filter (keyOf · = key) = [] := List.filter_eq_nil_iff.2 fun b hb hkey => by
          obtain ⟨i, counter, -, hi⟩ := h.marked b hb
          exact hnew _ (List.mem_of_getElem? hi) (of_decide_eq_true hkey)
        rw [hnone]
        exact Counter.tallies_empty
    · obtain ⟨i, counter, hm, hi⟩ := h.marked b hb
      exact ⟨i, counter, hm, by rw [List.getElem?_append_left (List.getElem?_eq_some_iff.1 hi).1, hi]⟩

/-- The counter of a tallied block covers it. -/
theorem covers (h : t.Tallies bs) (hb : b ∈ bs) :
    ∃ i counter, b.marker.toNat = i + 1 ∧ t.entries[i]? = some (keyOf b, counter) ∧
      counter.Covers b.size := by
  obtain ⟨i, counter, hm, hi⟩ := h.marked b hb
  refine ⟨i, counter, hm, hi, (h.entry _ (List.mem_of_getElem? hi)).covers ?_⟩
  exact List.mem_map_of_mem (List.mem_filter.2 ⟨hb, decide_eq_true rfl⟩)

theorem fits (h : t.Tallies bs) (hroom : Room bs n) (key : SiteKey) : t.Fits key n := by
  obtain ⟨counter, hi⟩ := getElem?_place t key
  unfold Fits
  rw [counterAt_of_getElem? hi]
  exact hroom.fits List.filter_sublist ((h.place key).entry _ (List.mem_of_getElem? hi))

theorem charge (h : t.Tallies bs) (hm : b.marker = (t.charge (keyOf b) b.size).2)
    (hf : t.Fits (keyOf b) b.size) (hplace : (t.place (keyOf b)).2 + 1 < 2 ^ 32) :
    (t.charge (keyOf b) b.size).1.Tallies (b :: bs) := by
  obtain ⟨counter, hi⟩ := getElem?_place t (keyOf b)
  have hcounter := counterAt_of_getElem? hi
  unfold Fits at hf
  rw [hcounter] at hf
  have hentry := (h.place (keyOf b)).entry _ (List.mem_of_getElem? hi)
  refine (h.place (keyOf b)).adjust
    (f := fun _ => ((t.place (keyOf b)).1.counterAt (t.place (keyOf b)).2).charge b.size)
    hi ?_ (fun key' hkey => ?_) fun b' hb' => ?_
  · rw [hcounter, List.filter_cons_of_pos (by simp)]
    exact hentry.charge hf
  · rw [List.filter_cons_of_neg (by simpa using hkey.symm)]
  · rcases List.mem_cons.1 hb' with rfl | hb'
    · refine .inr ⟨?_, rfl⟩
      rw [hm]
      exact UInt32.toNat_ofNat_of_lt' hplace
    · exact .inl hb'

theorem deallocate (h : t.Tallies (b :: bs)) : (t.deallocate b.marker b.size).Tallies bs := by
  obtain ⟨i, counter, hm, hi⟩ := h.marked b List.mem_cons_self
  rw [deallocate_eq hm]
  have hentry := h.entry _ (List.mem_of_getElem? hi)
  rw [List.filter_cons_of_pos (by simp)] at hentry
  refine h.adjust hi hentry.deallocate (fun key' hkey => ?_) fun b' hb' =>
    .inl (List.mem_cons_of_mem _ hb')
  rw [List.filter_cons_of_neg (by simpa using hkey.symm)]

end Tallies

end SiteTable

/-! ## Ledgers -/

namespace Ledger

variable {l : Ledger} {origin : Origin}

/-- The origin that is recorded for a request from `origin`. -/
def originOf (l : Ledger) (origin : Origin) : Origin :=
  if l.level = .detail then origin else { origin with stack := .empty }

theorem originOf_detail (h : l.level = .detail) : l.originOf origin = origin :=
  if_pos h

theorem originOf_summary (h : l.level = .summary) :
    l.originOf origin = { origin with stack := .empty } :=
  if_neg (h ▸ nofun)

/-- Who is charged for a request. -/
def requester (origin : Origin) (c : Category) : SiteKey :=
  ⟨origin.site, origin.stack, c⟩

/-- There is room in all counters for a block. -/
structure Fits (l : Ledger) (c : Category) (origin : Origin) (n : UInt64) : Prop where
  summary : l.summary.Fits c n
  sites : l.level = .detail → l.sites.Fits (requester origin c) n

/-- There is a marker for the requester, if requesters are counted. -/
def HasMarker (l : Ledger) (c : Category) (origin : Origin) : Prop :=
  l.level = .detail → (l.sites.place (requester origin c)).2 + 1 < 2 ^ 32

/-- The ledger with one more block in its counters, and the marker of that block. -/
def charge (l : Ledger) (c : Category) (origin : Origin) (n : UInt64) : Ledger × UInt32 :=
  if l.level = .detail then
    let (sites, marker) := l.sites.charge (requester origin c) n
    ({ l with summary := l.summary.charge c n, sites }, marker)
  else
    ({ l with summary := l.summary.charge c n }, 0)

/-- A charge is to the counters only. -/
theorem charge_eq (l : Ledger) (c : Category) (origin : Origin) (n : UInt64) :
    (l.charge c origin n).1 =
      { l with
        summary := (l.charge c origin n).1.summary
        sites := (l.charge c origin n).1.sites } := by
  unfold charge
  split <;> rfl

/-- Neither counter of a category nor, at the level of call sites, that of the requester goes below
zero when a block is discharged. -/
structure Covers (l : Ledger) (b : LiveBlock) : Prop where
  summary : l.summary.Covers b.category b.size
  sites : l.level = .detail → ∃ i counter, b.marker.toNat = i + 1 ∧
    l.sites.entries[i]? = some (LeakRecord.keyOf b, counter) ∧ counter.Covers b.size

/-- A ledger whose counters stand for these blocks. Requesters are counted at the level of call
sites only. -/
structure Tallies (l : Ledger) (bs : List LiveBlock) : Prop where
  summary : l.summary.Tallies bs
  sites : l.level = .detail → l.sites.Tallies bs

namespace Tallies

theorem perm (h : l.Tallies bs) (hp : bs.Perm bs') : l.Tallies bs' :=
  ⟨h.summary.perm hp, fun hdetail => (h.sites hdetail).perm hp⟩

theorem covers (h : l.Tallies bs) (hb : b ∈ bs) : l.Covers b :=
  ⟨h.summary.covers hb, fun hdetail => (h.sites hdetail).covers hb⟩

theorem fits (h : l.Tallies bs) (hroom : Room bs n) (c : Category) (origin : Origin) :
    l.Fits c origin n :=
  ⟨h.summary.fits hroom c, fun hdetail => (h.sites hdetail).fits hroom (requester origin c)⟩

theorem discharge (h : l.Tallies (b :: bs)) : (l.discharge b).Tallies bs :=
  ⟨h.summary.deallocate, fun hdetail => (h.sites hdetail).deallocate⟩

theorem charge (h : l.Tallies bs) (hf : l.Fits c origin n) (hmarker : l.HasMarker c origin) :
    (l.charge c origin n).1.Tallies (⟨n, c, origin, (l.charge c origin n).2⟩ :: bs) := by
  unfold Ledger.charge
  by_cases hdetail : l.level = .detail
  · rw [if_pos hdetail]
    exact ⟨MallocSummary.Tallies.charge (b := ⟨n, c, origin, _⟩) h.summary hf.summary, fun _ =>
      (h.sites hdetail).charge (b := ⟨n, c, origin, _⟩) rfl (hf.sites hdetail) (hmarker hdetail)⟩
  · rw [if_neg hdetail]
    exact ⟨MallocSummary.Tallies.charge (b := ⟨n, c, origin, _⟩) h.summary hf.summary,
      fun h => absurd h hdetail⟩

end Tallies

end Ledger

end HostServices
