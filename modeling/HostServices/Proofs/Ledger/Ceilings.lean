import HostServices.Proofs.Ledger.Record

/-!
# Counters under their ceilings

A counter is within a limit for some allocations (`Counter.Within`) when it has at least their bytes
and neither its bytes nor their peak is above the limit. More bytes than those of the allocations
are there when an allocation was charged to one counter and could not be charged to the next. A
summary is capped (`MallocSummary.Capped`) when each of its counters is within its ceiling, and has
room (`MallocSummary.HasRoom`) for what may be charged: a request that passes its check has room
(`Ledger.hasRoom_of_limitCheck`), and so has a resize that passes the check for its growth, once the
old block is out of the counters (`Ledger.Capped.hasRoom_retire`).
-/

namespace HostServices

variable {n k limit : UInt64}

/-! ## Counters -/

namespace Counter

variable {c : Counter} {sizes sizes' : List UInt64}

/-- The counter has the bytes of these allocations, and never had more than the limit. -/
structure Within (c : Counter) (limit : UInt64) (sizes : List UInt64) : Prop where
  counted : (sizes.map UInt64.toNat).sum ≤ c.bytes.toNat
  bytes : c.bytes.toNat ≤ limit.toNat
  peak : c.peakBytes.toNat ≤ limit.toNat

theorem within_empty (limit : UInt64) : Within {} limit [] :=
  ⟨Nat.le_refl 0, Nat.zero_le _, Nat.zero_le _⟩

/-- The number of allocations goes round before their bytes change. -/
theorem allocate_of_full (h : 2 ^ 64 ≤ c.count.toNat + 1) :
    ((allocate n).run c).state = { c with count := c.count + 1 } ∧
      ((allocate n).run c).result = .error (.fault .addOverflow) := by
  unfold allocate
  simp only [Op.state_get_bind, Op.result_get_bind, Op.state_set_bind, Op.result_set_bind]
  have hcount (s : Counter) : ((Op.add c.count 1 : Op Counter UInt64).run s).result = .error _ :=
    Op.result_add_of_le h s
  rw [Op.state_bind_of_error (hcount _), Op.result_bind_of_error (hcount _)]
  exact ⟨rfl, rfl⟩

namespace Within

theorem of_sum_le (h : c.Within limit sizes)
    (hsum : (sizes'.map UInt64.toNat).sum ≤ (sizes.map UInt64.toNat).sum) : c.Within limit sizes' :=
  ⟨hsum.trans h.counted, h.bytes, h.peak⟩

theorem perm (h : c.Within limit sizes) (hp : sizes.Perm sizes') : c.Within limit sizes' :=
  h.of_sum_le (hp.map _).sum_eq.ge

theorem tail (h : c.Within limit (n :: sizes)) : c.Within limit sizes := by
  refine h.of_sum_le ?_
  rw [List.map_cons, List.sum_cons]
  exact Nat.le_add_left ..

theorem charge (h : c.Within limit sizes) (hroom : c.bytes.toNat + n.toNat ≤ limit.toNat) :
    (c.charge n).Within limit (n :: sizes) := by
  have hlimit := limit.toNat_lt
  have hbytes : (c.charge n).bytes.toNat = c.bytes.toNat + n.toNat :=
    Word.toNat_add_of_lt (Nat.lt_of_le_of_lt hroom hlimit)
  have hpeak : (c.charge n).peakBytes.toNat = max c.peakBytes.toNat (c.charge n).bytes.toNat :=
    Word.toNat_max ..
  refine ⟨?_, ?_, ?_⟩
  · rw [hbytes, List.map_cons, List.sum_cons, Nat.add_comm]
    exact Nat.add_le_add_right h.counted _
  · rw [hbytes]
    exact hroom
  · rw [hpeak, hbytes]
    exact Nat.max_le.2 ⟨h.peak, hroom⟩

/-- However charging an allocation ends, the counter is within the limit, and if it was charged, it
is among those that are counted. -/
theorem allocate (h : c.Within limit sizes) (hroom : c.bytes.toNat + n.toNat ≤ limit.toNat) :
    ((Counter.allocate n).run c).state.Within limit sizes ∧
      (((Counter.allocate n).run c).result = .ok () →
        ((Counter.allocate n).run c).state.Within limit (n :: sizes)) := by
  rcases Nat.lt_or_ge (c.count.toNat + 1) (2 ^ 64) with hcount | hcount
  · obtain ⟨hstate, -⟩ := allocate_of_fits ⟨hcount, Nat.lt_of_le_of_lt hroom limit.toNat_lt⟩
    rw [hstate]
    exact ⟨(h.charge hroom).tail, fun _ => h.charge hroom⟩
  · obtain ⟨hstate, hresult⟩ := allocate_of_full (n := n) hcount
    rw [hstate, hresult]
    exact ⟨⟨h.counted, h.bytes, h.peak⟩, nofun⟩

/-- A counted allocation can be discharged without going round. -/
theorem toNat_deallocate (h : c.Within limit (k :: sizes)) :
    (c.deallocate k).bytes.toNat = c.bytes.toNat - k.toNat ∧ k.toNat ≤ c.bytes.toNat := by
  have hcounted := h.counted
  rw [List.map_cons, List.sum_cons] at hcounted
  have hk : k.toNat ≤ c.bytes.toNat := by omega
  exact ⟨Word.toNat_sub_of_le hk, hk⟩

theorem deallocate (h : c.Within limit (k :: sizes)) : (c.deallocate k).Within limit sizes := by
  obtain ⟨hbytes, hk⟩ := h.toNat_deallocate
  have hcounted := h.counted
  rw [List.map_cons, List.sum_cons] at hcounted
  refine ⟨?_, ?_, h.peak⟩
  · rw [hbytes]
    omega
  · rw [hbytes]
    exact (Nat.sub_le ..).trans h.bytes

/-- Where there is room for the growth of an allocation, there is room for all of it once its old
bytes are gone. -/
theorem room_deallocate (h : c.Within limit (k :: sizes))
    (hgrow : k < n → c.bytes.toNat + (n - k).toNat ≤ limit.toNat) :
    (c.deallocate k).bytes.toNat + n.toNat ≤ limit.toNat := by
  obtain ⟨hbytes, hk⟩ := h.toNat_deallocate
  have hlimit := h.bytes
  rw [hbytes]
  by_cases hlt : k < n
  · have hle : k.toNat ≤ n.toNat := Nat.le_of_lt (UInt64.lt_iff_toNat_lt.1 hlt)
    have hgrown := hgrow hlt
    rw [Word.toNat_sub_of_le hle] at hgrown
    omega
  · have hle : n.toNat ≤ k.toNat := UInt64.le_iff_toNat_le.1 (UInt64.not_lt.1 hlt)
    omega

end Within

end Counter

/-! ## Summaries -/

/-- A ceiling in force that a sum of words can be above. The largest word is none: sums that are too
large for a word count as that word when they are measured. -/
structure MallocLimit.Binds (ceiling : Option UInt64) (limit : UInt64) : Prop where
  eq : ceiling = some limit
  lt : limit.toNat < 2 ^ 64 - 1

open MallocLimit (Binds)

/-- A counter that is within each limit in force is within its ceiling, also where that is the
largest word. -/
theorem Counter.le_of_within {c : Counter} {ceiling : Option UInt64} {sizes : List UInt64}
    (h : ∀ {limit}, Binds ceiling limit → c.Within limit sizes) (hlimit : ceiling = some limit) :
    c.bytes ≤ limit ∧ c.peakBytes ≤ limit := by
  rw [UInt64.le_iff_toNat_le, UInt64.le_iff_toNat_le]
  rcases Nat.lt_or_ge limit.toNat (2 ^ 64 - 1) with hlt | hge
  · have hwithin := h ⟨hlimit, hlt⟩
    exact ⟨hwithin.bytes, hwithin.peak⟩
  · have hbytes := c.bytes.toNat_lt
    have hpeak := c.peakBytes.toNat_lt
    exact ⟨by omega, by omega⟩

namespace MallocSummary

variable {s : MallocSummary} {ceilings : MallocLimit} {bs bs' : List LiveBlock} {b : LiveBlock}
  {c : Category}

/-- Each counter with a ceiling is within it, for the blocks that it is for. -/
structure Capped (s : MallocSummary) (ceilings : MallocLimit) (bs : List LiveBlock) : Prop where
  category : ∀ {c limit}, Binds (ceilings.category c) limit →
    (s.category c).Within limit ((bs.filter (·.category = c)).map (·.size))
  total : ∀ {limit}, Binds ceilings.total limit → s.total.Within limit (bs.map (·.size))

/-- No ceiling stands against `n` more bytes for `c`. -/
structure HasRoom (s : MallocSummary) (ceilings : MallocLimit) (c : Category) (n : UInt64) :
    Prop where
  category : ∀ {limit}, Binds (ceilings.category c) limit →
    (s.category c).bytes.toNat + n.toNat ≤ limit.toNat
  total : ∀ {limit}, Binds ceilings.total limit → s.total.bytes.toNat + n.toNat ≤ limit.toNat

theorem capped_empty (ceilings : MallocLimit) : Capped {} ceilings [] :=
  ⟨fun _ => Counter.within_empty _, fun _ => Counter.within_empty _⟩

theorem Capped.perm (h : s.Capped ceilings bs) (hp : bs.Perm bs') : s.Capped ceilings bs' :=
  ⟨fun hbinds => (h.category hbinds).perm ((hp.filter _).map _),
    fun hbinds => (h.total hbinds).perm (hp.map _)⟩

theorem Capped.tail (h : s.Capped ceilings (b :: bs)) : s.Capped ceilings bs where
  category {c limit} hbinds := by
    have hcategory := h.category hbinds
    by_cases hc : b.category = c
    · rw [List.filter_cons_of_pos (by simpa using hc)] at hcategory
      exact hcategory.tail
    · rwa [List.filter_cons_of_neg (by simpa using hc)] at hcategory
  total hbinds := (h.total hbinds).tail

theorem allocate_of_error {e : Stop}
    (h : ((Counter.allocate n).run (s.category c)).result = .error e) :
    ((allocate c n).run s).state =
        s.setCategory c ((Counter.allocate n).run (s.category c)).state ∧
      ((allocate c n).run s).result = .error e := by
  have hfirst : ((Op.zoom (·.category c) (fun s k => setCategory s c k)
      (Counter.allocate n)).run s).result = .error e := h
  unfold allocate
  rw [Op.state_bind_of_error hfirst, Op.result_bind_of_error hfirst]
  exact ⟨rfl, rfl⟩

/-- The category is charged before the total. -/
theorem allocate_of_ok (h : ((Counter.allocate n).run (s.category c)).result = .ok ()) :
    ((allocate c n).run s).state =
        { s.setCategory c ((Counter.allocate n).run (s.category c)).state with
          total := ((Counter.allocate n).run s.total).state } ∧
      ((allocate c n).run s).result = ((Counter.allocate n).run s.total).result := by
  have hfirst : ((Op.zoom (·.category c) (fun s k => setCategory s c k)
      (Counter.allocate n)).run s).result = .ok () := h
  unfold allocate
  rw [Op.state_bind_of_ok hfirst, Op.result_bind_of_ok hfirst]
  exact ⟨rfl, rfl⟩

/-- However charging a block ends, the counters are capped, and if it was charged, it is among those
that are counted. -/
theorem Capped.allocate (h : s.Capped ceilings bs) (hroom : s.HasRoom ceilings b.category b.size) :
    ((MallocSummary.allocate b.category b.size).run s).state.Capped ceilings bs ∧
      (((MallocSummary.allocate b.category b.size).run s).result = .ok () →
        ((MallocSummary.allocate b.category b.size).run s).state.Capped ceilings (b :: bs)) := by
  have kept {d : Category} {limit : UInt64} (hbinds : Binds (ceilings.category d) limit) :
      ((s.setCategory b.category
        ((Counter.allocate b.size).run (s.category b.category)).state).category d).Within limit
        ((bs.filter (·.category = d)).map (·.size)) := by
    show (if d = b.category then _ else s.category d).Within limit _
    by_cases hd : d = b.category
    · subst hd
      rw [if_pos rfl]
      exact ((h.category hbinds).allocate (hroom.category hbinds)).1
    · rw [if_neg hd]
      exact h.category hbinds
  have total {limit : UInt64} (hbinds : Binds ceilings.total limit) :=
    (h.total hbinds).allocate (hroom.total hbinds)
  cases hcategory : ((Counter.allocate b.size).run (s.category b.category)).result with
  | error e =>
    obtain ⟨hstate, hresult⟩ := allocate_of_error hcategory
    rw [hstate, hresult]
    exact ⟨⟨kept, h.total⟩, nofun⟩
  | ok u =>
    obtain ⟨hstate, hresult⟩ := allocate_of_ok hcategory
    rw [hstate, hresult]
    refine ⟨⟨kept, fun hbinds => (total hbinds).1⟩, fun hok => ⟨fun {d limit} hbinds => ?_,
      fun hbinds => (total hbinds).2 hok⟩⟩
    by_cases hd : b.category = d
    · subst hd
      rw [List.filter_cons_of_pos (by simp)]
      show (if b.category = b.category then _ else s.category b.category).Within limit _
      rw [if_pos rfl]
      exact ((h.category hbinds).allocate (hroom.category hbinds)).2 hcategory
    · rw [List.filter_cons_of_neg (by simpa using hd)]
      exact kept hbinds

theorem Capped.deallocate (h : s.Capped ceilings (b :: bs)) :
    (s.deallocate b.category b.size).Capped ceilings bs where
  category {c limit} hbinds := by
    show (if c = b.category then (s.category b.category).deallocate b.size
      else s.category c).Within limit _
    have hcategory := h.category hbinds
    by_cases hc : c = b.category
    · rw [hc, List.filter_cons_of_pos (by simp)] at hcategory
      rw [if_pos hc, hc]
      exact hcategory.deallocate
    · rw [List.filter_cons_of_neg (by simpa using Ne.symm hc)] at hcategory
      rw [if_neg hc]
      exact hcategory
  total hbinds := (h.total hbinds).deallocate

/-- Where there is room for the growth of a block, there is room for all of it once it has been
discharged. -/
theorem Capped.hasRoom_deallocate (h : s.Capped ceilings (b :: bs))
    (hgrow : b.size < n → s.HasRoom ceilings b.category (n - b.size)) :
    (s.deallocate b.category b.size).HasRoom ceilings b.category n where
  category {limit} hbinds := by
    have hcategory := h.category hbinds
    rw [List.filter_cons_of_pos (by simp)] at hcategory
    show (if b.category = b.category then (s.category b.category).deallocate b.size
      else s.category b.category).bytes.toNat + n.toNat ≤ limit.toNat
    rw [if_pos rfl]
    exact hcategory.room_deallocate fun hlt => (hgrow hlt).category hbinds
  total hbinds := (h.total hbinds).room_deallocate fun hlt => (hgrow hlt).total hbinds

end MallocSummary

/-! ## Ledgers -/

namespace Ledger

variable {l : Ledger} {b : LiveBlock} {c : Category} {p outer : UInt64}

/-- No counter has been above its ceiling, and those with one have the bytes of all live blocks. -/
def Capped (l : Ledger) : Prop :=
  l.summary.Capped l.config.mallocLimit l.live.values

theorem capped_empty (config : MemoryConfig) (policy : CorruptionPolicy) :
    Capped { config, policy } :=
  MallocSummary.capped_empty _

/-- One ceiling's part of the check. -/
theorem room_of_check {e : UInt64 → MemoryError} {used : UInt64} {ceiling : Option UInt64}
    (h : (match ceiling with
      | none => .ok ()
      | some limit =>
        if limit < Word.addSat used n then .error (e limit) else .ok () :
        Except MemoryError Unit) = .ok ()) (hbinds : Binds ceiling limit) :
    used.toNat + n.toNat ≤ limit.toNat := by
  obtain ⟨rfl, hlt⟩ := hbinds
  have hle : ¬ limit < Word.addSat used n := by
    intro hover
    simp only [hover, if_true] at h
    cases h
  have hle := UInt64.le_iff_toNat_le.1 (UInt64.not_lt.1 hle)
  rw [Word.toNat_addSat] at hle
  omega

/-- What passes the check of its size has room. -/
theorem hasRoom_of_limitCheck (henabled : l.enabled = true) (h : l.limitCheck n c = .ok ()) :
    l.summary.HasRoom l.config.mallocLimit c n := by
  unfold limitCheck at h
  simp only [henabled, if_true, bind, Except.bind] at h
  split at h
  · cases h
  · rename_i htotal
    exact ⟨room_of_check h, room_of_check htotal⟩

/-- A block out of the live table may stay in the counters. -/
theorem Capped.erase (h : l.Capped) (p : UInt64) :
    l.summary.Capped l.config.mallocLimit (l.live.erase p).values := by
  cases hlive : l.live.get? p with
  | none =>
    rw [AddressMap.erase_of_get?_eq_none hlive]
    exact h
  | some b => exact (MallocSummary.Capped.perm h (AddressMap.values_erase_perm hlive)).tail

/-- A fresh block is charged and recorded, or charged in part and lost. One that was recorded where
the host block starts goes for it. -/
theorem Capped.recordMalloc (h : l.Capped) (henabled : l.enabled = true)
    (hroom : l.summary.HasRoom l.config.mallocLimit c n) (outer : UInt64) (origin : Origin)
    (mem : Memory) :
    Capped ((TrackedMemory.recordMalloc outer n c origin).run ⟨l, mem⟩).state.ledger := by
  obtain ⟨sites, ⟨marker, hresult, hrun⟩ | ⟨summary, e, hsummary, hrun⟩⟩ :=
    TrackedMemory.recordMalloc_uniform henabled outer n c origin
  · rw [(hrun mem).1]
    have herased := h.erase (BlockHeader.innerOf outer)
    have hcharged := (herased.allocate (b := ⟨n, c, l.originOf origin, marker⟩) hroom).2 hresult
    exact hcharged.perm (AddressMap.values_insert_perm_erase ..).symm
  · rw [(hrun mem).1]
    rcases hsummary with rfl | ⟨rfl, -⟩
    · exact h
    · exact (MallocSummary.Capped.allocate (b := ⟨n, c, origin, 0⟩) h hroom).1

section retire

variable (h : l.Capped) (hlive : l.live.get? p = some b)
include h hlive

theorem Capped.retire : (l.retire p b).Capped :=
  (MallocSummary.Capped.perm h (AddressMap.values_erase_perm hlive)).deallocate

/-- A resize is checked for its growth while the old block is in the counters. -/
theorem Capped.hasRoom_retire (henabled : l.enabled = true)
    (hlimit : b.size < n → l.limitCheck (n - b.size) b.category = .ok ()) :
    (l.retire p b).summary.HasRoom l.config.mallocLimit b.category n :=
  (MallocSummary.Capped.perm h (AddressMap.values_erase_perm hlive)).hasRoom_deallocate
    fun hgrow => hasRoom_of_limitCheck henabled (hlimit hgrow)

end retire

end Ledger

end HostServices
