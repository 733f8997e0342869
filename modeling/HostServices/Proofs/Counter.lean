import HostServices.Counter
import HostServices.Proofs.Op
import Mathlib.Algebra.BigOperators.Group.List.Basic

/-!
# Counters that go round nowhere

A counter tallies allocations when its numbers are how many they are and their bytes together.
Charging one that fits (`allocate_of_fits`) and discharging one that is covered keep the tally, and
of what a counter tallies it covers everything. One that does not fit is noticed
(`fits_of_allocate`).
-/

namespace HostServices.Counter

variable {c : Counter} {n : UInt64} {sizes sizes' : List UInt64}

/-- There is room in both numbers for one more allocation of `n` bytes. -/
structure Fits (c : Counter) (n : UInt64) : Prop where
  count : c.count.toNat + 1 < 2 ^ 64
  bytes : c.bytes.toNat + n.toNat < 2 ^ 64

/-- Neither number goes below zero when an allocation of `n` bytes is discharged. -/
structure Covers (c : Counter) (n : UInt64) : Prop where
  count : 1 ≤ c.count.toNat
  bytes : n.toNat ≤ c.bytes.toNat

/-- The counter with one more allocation, and the highest values with it. -/
def charge (c : Counter) (n : UInt64) : Counter where
  count := c.count + 1
  bytes := c.bytes + n
  peakCount := Word.max c.peakCount (c.count + 1)
  peakBytes := Word.max c.peakBytes (c.bytes + n)

theorem allocate_of_fits (h : c.Fits n) :
    ((allocate n).run c).state = c.charge n ∧ ((allocate n).run c).result = .ok () := by
  unfold allocate
  simp only [Op.state_get_bind, Op.result_get_bind, Op.state_set_bind, Op.result_set_bind]
  have hcount (s : Counter) : ((Op.add c.count 1 : Op Counter UInt64).run s).result = .ok _ :=
    Op.result_add_of_lt h.count s
  have hbytes (s : Counter) : ((Op.add c.bytes n : Op Counter UInt64).run s).result = .ok _ :=
    Op.result_add_of_lt h.bytes s
  rw [Op.state_bind_of_ok (hcount _), Op.result_bind_of_ok (hcount _), Op.state_modify_bind,
    Op.result_modify_bind, Op.state_bind_of_ok (hbytes _), Op.result_bind_of_ok (hbytes _)]
  exact ⟨rfl, rfl⟩

/-- Only an allocation that fits is charged without a stop. -/
theorem fits_of_allocate (h : ((allocate n).run c).result = .ok ()) : c.Fits n := by
  unfold allocate at h
  simp only [Op.result_get_bind, Op.result_set_bind] at h
  have stops {a b : UInt64} (hbig : ¬ a.toNat + b.toNat < 2 ^ 64) (s : Counter) :
      ((Op.add a b : Op Counter UInt64).run s).result = .error (.fault .addOverflow) :=
    Op.result_add_of_le (Nat.not_lt.1 hbig) s
  by_cases hcount : c.count.toNat + 1 < 2 ^ 64
  · have hsum (s : Counter) : ((Op.add c.count 1 : Op Counter UInt64).run s).result = .ok _ :=
      Op.result_add_of_lt hcount s
    rw [Op.result_bind_of_ok (hsum _), Op.result_modify_bind] at h
    by_cases hbytes : c.bytes.toNat + n.toNat < 2 ^ 64
    · exact ⟨hcount, hbytes⟩
    · rw [Op.result_bind_of_error (stops hbytes _)] at h
      cases h
  · rw [Op.result_bind_of_error (stops (b := 1) hcount _)] at h
    cases h

/-- A counter that stands for the allocations of these sizes. -/
structure Tallies (c : Counter) (sizes : List UInt64) : Prop where
  count : c.count.toNat = sizes.length
  bytes : c.bytes.toNat = (sizes.map UInt64.toNat).sum

theorem tallies_empty : Tallies {} [] :=
  ⟨rfl, rfl⟩

namespace Tallies

theorem perm (h : c.Tallies sizes) (hp : sizes.Perm sizes') : c.Tallies sizes' where
  count := h.count.trans hp.length_eq
  bytes := h.bytes.trans (hp.map _).sum_eq

theorem charge (h : c.Tallies sizes) (hf : c.Fits n) : (c.charge n).Tallies (n :: sizes) where
  count := by
    rw [List.length_cons, ← h.count]
    exact Word.toNat_add_of_lt hf.count
  bytes := by
    rw [List.map_cons, List.sum_cons, ← h.bytes, Nat.add_comm]
    exact Word.toNat_add_of_lt hf.bytes

/-- Each tallied allocation is covered. -/
theorem covers (h : c.Tallies sizes) (hn : n ∈ sizes) : c.Covers n := by
  have hfirst := h.perm (List.perm_cons_erase hn)
  have hcount := hfirst.count
  have hbytes := hfirst.bytes
  rw [List.length_cons] at hcount
  rw [List.map_cons, List.sum_cons] at hbytes
  exact ⟨by omega, by omega⟩

theorem deallocate (h : c.Tallies (n :: sizes)) : (c.deallocate n).Tallies sizes := by
  have hc := h.covers List.mem_cons_self
  have hcount := h.count
  have hbytes := h.bytes
  rw [List.length_cons] at hcount
  rw [List.map_cons, List.sum_cons] at hbytes
  refine ⟨?_, ?_⟩
  · show (c.count - 1).toNat = _
    rw [Word.toNat_sub_of_le (show (1 : UInt64).toNat ≤ _ from hc.count), hcount]
    rfl
  · show (c.bytes - n).toNat = _
    rw [Word.toNat_sub_of_le hc.bytes, hbytes, Nat.add_sub_cancel_left]

/-- There is room for one more allocation if there is in memory. -/
theorem fits (h : c.Tallies sizes) (hcount : sizes.length + 1 < 2 ^ 64)
    (hbytes : (sizes.map UInt64.toNat).sum + n.toNat < 2 ^ 64) : c.Fits n :=
  ⟨h.count ▸ hcount, h.bytes ▸ hbytes⟩

end Tallies

/-- One allocation in place of another changes the bytes by the difference only. -/
theorem charge_deallocate {k : UInt64} (h : c.Covers k) (hf : (c.deallocate k).Fits n) :
    ((c.deallocate k).charge n).count = c.count ∧
      ((c.deallocate k).charge n).bytes.toNat + k.toNat = c.bytes.toNat + n.toNat := by
  have hbytes : (c.deallocate k).bytes.toNat = c.bytes.toNat - k.toNat := Word.toNat_sub_of_le h.bytes
  have hcharged : ((c.deallocate k).charge n).bytes.toNat = (c.deallocate k).bytes.toNat + n.toNat :=
    Word.toNat_add_of_lt hf.bytes
  have hcovered := h.bytes
  refine ⟨UInt64.sub_add_cancel c.count 1, ?_⟩
  rw [hcharged, hbytes]
  omega

end HostServices.Counter
