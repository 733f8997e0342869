import HostServices.Kernel
import HostServices.Proofs.Alignment
import Mathlib.Order.CompletePartialOrder
import Mathlib.Order.Interval.Set.Disjoint

/-!
# What the calls of a kernel do

`KernelContract` states what is known of the calls that map and unmap: which addresses are mapped
afterwards, when a call fails and when it succeeds. A kernel may refuse a mapping for any reason, put
it anywhere and take a given address for a hint, and where it refuses large pages it may have dropped
what was mapped in their place. Only to give whole pages back never fails.

A range that a process has mapped for itself is followed as one addition to the addresses that were
mapped before (`Reserves`). Giving back pages at one of its ends leaves the rest (`unmap_front`,
`unmap_back`), and giving back all of it leaves what was there before (`mapped_unmap`).
-/

namespace HostServices

/-- A mapping that goes there replaces nothing. -/
def Placement.keeps : Placement → Bool
  | anywhere | fixedIfFree _ => true
  | fixed _ => false

namespace Kernel

variable (κ : Type) [Kernel κ]

/-- A length in whole pages. -/
def roundUp (n : ℕ) : ℕ :=
  (n + ((pageSize κ).toNat - 1)) / (pageSize κ).toNat * (pageSize κ).toNat

/-- The addresses of the pages that some bytes at an address take. -/
def pages (addr bytes : UInt64) : Set ℕ :=
  Set.Ico addr.toNat (addr.toNat + roundUp κ bytes.toNat)

theorem dvd_roundUp (n : ℕ) : (pageSize κ).toNat ∣ roundUp κ n :=
  Nat.dvd_mul_left ..

theorem roundUp_of_dvd {n : ℕ} (h : (pageSize κ).toNat ∣ n) : roundUp κ n = n := by
  obtain ⟨k, rfl⟩ := h
  unfold roundUp
  rcases Nat.eq_zero_or_pos (pageSize κ).toNat with hzero | hpos
  · rw [hzero, Nat.mul_zero, Nat.zero_mul]
  · rw [Nat.mul_add_div hpos, Nat.div_eq_of_lt (Nat.sub_one_lt_of_lt hpos), Nat.add_zero, Nat.mul_comm]

theorem pages_of_dvd {bytes : UInt64} (addr : UInt64) (h : (pageSize κ).toNat ∣ bytes.toNat) :
    pages κ addr bytes = Set.Ico addr.toNat (addr.toNat + bytes.toNat) := by
  rw [pages, roundUp_of_dvd κ h]

end Kernel

/-- What the calls of a kernel do to the addresses that are mapped. -/
structure KernelContract (κ : Type) [Kernel κ] where
  /-- The states that the kernel can be in. -/
  states : Set κ
  /-- The addresses that are mapped. -/
  mapped : κ → Set ℕ
  /-- The end of the addresses that can be mapped. -/
  limit : ℕ
  limit_lt : limit < 2 ^ 64
  isPowerOfTwo_pageSize : Word.isPowerOfTwo (Kernel.pageSize κ) = true
  map_mem {s : κ} (hs : s ∈ states) (p : Placement) (bytes : UInt64) (access : Access)
    (reserved : Bool) : (Kernel.map p bytes access reserved s).2 ∈ states
  mapLarge_mem {s : κ} (hs : s ∈ states) (addr bytes size : UInt64) (access : Access) :
    (Kernel.mapLarge addr bytes size access s).2 ∈ states
  unmap_mem {s : κ} (hs : s ∈ states) (addr bytes : UInt64) :
    (Kernel.unmap addr bytes s).2 ∈ states
  /-- A mapping that replaces nothing and fails leaves everything mapped as it was. -/
  mapped_map_of_error {s : κ} (hs : s ∈ states) {p : Placement} (hp : p.keeps = true)
    {bytes : UInt64} {access : Access} {reserved : Bool} {e : HostError}
    (h : (Kernel.map p bytes access reserved s).1 = .error e) :
    mapped (Kernel.map p bytes access reserved s).2 = mapped s
  /-- A mapping that replaces nothing is of whole pages, where nothing was mapped. -/
  map_of_ok {s : κ} (hs : s ∈ states) {p : Placement} (hp : p.keeps = true)
    {bytes base : UInt64} {access : Access} {reserved : Bool}
    (h : (Kernel.map p bytes access reserved s).1 = .ok base) :
    (Kernel.pageSize κ).toNat ∣ base.toNat ∧
      base.toNat + Kernel.roundUp κ bytes.toNat ≤ limit ∧
      Disjoint (mapped s) (Kernel.pages κ base bytes) ∧
      mapped (Kernel.map p bytes access reserved s).2 = mapped s ∪ Kernel.pages κ base bytes
  /-- Large pages that are refused may have cost what was mapped in their place, and nothing else. -/
  mapped_mapLarge_of_error {s : κ} (hs : s ∈ states) {addr bytes size : UInt64} {access : Access}
    (hdvd : size.toNat ∣ bytes.toNat) {e : HostError}
    (h : (Kernel.mapLarge addr bytes size access s).1 = .error e) :
    mapped (Kernel.mapLarge addr bytes size access s).2 ⊆ mapped s ∧
      mapped s \ Kernel.pages κ addr bytes ⊆ mapped (Kernel.mapLarge addr bytes size access s).2
  /-- Large pages are mapped at the address. -/
  mapLarge_of_ok {s : κ} (hs : s ∈ states) {addr bytes size base : UInt64} {access : Access}
    (hdvd : size.toNat ∣ bytes.toNat)
    (h : (Kernel.mapLarge addr bytes size access s).1 = .ok base) :
    base = addr ∧
      mapped (Kernel.mapLarge addr bytes size access s).2 = mapped s ∪ Kernel.pages κ addr bytes
  /-- Whole pages can always be given back. -/
  unmap_of_dvd {s : κ} (hs : s ∈ states) {addr bytes : UInt64}
    (haddr : (Kernel.pageSize κ).toNat ∣ addr.toNat)
    (hlimit : addr.toNat + Kernel.roundUp κ bytes.toNat ≤ limit) (hbytes : bytes ≠ 0) :
    (Kernel.unmap addr bytes s).1 = .ok () ∧
      mapped (Kernel.unmap addr bytes s).2 = mapped s \ Kernel.pages κ addr bytes
  /-- To give back no bytes may be refused, and changes nothing. -/
  mapped_unmap_zero {s : κ} (hs : s ∈ states) (addr : UInt64) :
    mapped (Kernel.unmap addr 0 s).2 = mapped s

namespace KernelContract

variable {κ : Type} [Kernel κ] {K : KernelContract κ} {s s' : κ} {addr bytes base : UInt64}
  {lo hi : ℕ}

/-- Whole pages are mapped where nothing was, and nothing else has changed. -/
structure Reserves (K : KernelContract κ) (s : κ) (lo hi : ℕ) (s' : κ) : Prop where
  mem : s' ∈ K.states
  mapped_eq : K.mapped s' = K.mapped s ∪ Set.Ico lo hi
  disjoint : Disjoint (K.mapped s) (Set.Ico lo hi)
  le : lo ≤ hi
  le_limit : hi ≤ K.limit
  dvd_lo : (Kernel.pageSize κ).toNat ∣ lo
  dvd_hi : (Kernel.pageSize κ).toNat ∣ hi

/-- A mapping that replaces nothing reserves a range. -/
theorem reserves_of_map (hs : s ∈ K.states) {p : Placement} (hp : p.keeps = true)
    {access : Access} {reserved : Bool} (h : (Kernel.map p bytes access reserved s).1 = .ok base) :
    K.Reserves s base.toNat (base.toNat + Kernel.roundUp κ bytes.toNat)
      (Kernel.map p bytes access reserved s).2 := by
  obtain ⟨hdvd, hlimit, hdisjoint, hmapped⟩ := K.map_of_ok hs hp h
  exact ⟨K.map_mem hs .., hmapped, hdisjoint, Nat.le_add_right .., hlimit, hdvd,
    Nat.dvd_add hdvd (Kernel.dvd_roundUp κ _)⟩

namespace Reserves

variable (h : K.Reserves s lo hi s')
include h

/-- Pages of the range can be given back. -/
theorem unmap_within (hlo : lo ≤ addr.toNat) (hhi : addr.toNat + bytes.toNat ≤ hi)
    (haddr : (Kernel.pageSize κ).toNat ∣ addr.toNat)
    (hdvd : (Kernel.pageSize κ).toNat ∣ bytes.toNat) (hbytes : bytes ≠ 0) :
    (Kernel.unmap addr bytes s').1 = .ok () ∧
      K.mapped (Kernel.unmap addr bytes s').2 =
        K.mapped s ∪ Set.Ico lo hi \ Set.Ico addr.toNat (addr.toNat + bytes.toNat) := by
  have hlimit : addr.toNat + Kernel.roundUp κ bytes.toNat ≤ K.limit := by
    rw [Kernel.roundUp_of_dvd κ hdvd]
    exact hhi.trans h.le_limit
  obtain ⟨hok, hmapped⟩ := K.unmap_of_dvd h.mem haddr hlimit hbytes
  have hbeside : Disjoint (K.mapped s) (Set.Ico addr.toNat (addr.toNat + bytes.toNat)) :=
    h.disjoint.mono_right (Set.Ico_subset_Ico hlo hhi)
  refine ⟨hok, ?_⟩
  rw [hmapped, h.mapped_eq, Kernel.pages_of_dvd κ addr hdvd, Set.union_sdiff_distrib,
    hbeside.sdiff_eq_left]

theorem unmap_front (haddr : addr.toNat = lo) (hdvd : (Kernel.pageSize κ).toNat ∣ bytes.toNat)
    (hhi : lo + bytes.toNat ≤ hi) (hbytes : bytes ≠ 0) :
    (Kernel.unmap addr bytes s').1 = .ok () ∧
      K.Reserves s (lo + bytes.toNat) hi (Kernel.unmap addr bytes s').2 := by
  obtain ⟨hok, hmapped⟩ := h.unmap_within haddr.ge (haddr ▸ hhi) (haddr ▸ h.dvd_lo) hdvd hbytes
  have hrest : Set.Ico lo hi \ Set.Ico lo (lo + bytes.toNat) = Set.Ico (lo + bytes.toNat) hi := by
    ext a
    simp only [Set.mem_sdiff, Set.mem_Ico]
    omega
  rw [haddr, hrest] at hmapped
  exact ⟨hok, K.unmap_mem h.mem .., hmapped,
    h.disjoint.mono_right (Set.Ico_subset_Ico_left (Nat.le_add_right ..)), hhi, h.le_limit,
    Nat.dvd_add h.dvd_lo hdvd, h.dvd_hi⟩

theorem unmap_back (hlo : lo ≤ addr.toNat) (haddr : (Kernel.pageSize κ).toNat ∣ addr.toNat)
    (hhi : addr.toNat + bytes.toNat = hi) (hbytes : bytes ≠ 0) :
    (Kernel.unmap addr bytes s').1 = .ok () ∧
      K.Reserves s lo addr.toNat (Kernel.unmap addr bytes s').2 := by
  have hdvd : (Kernel.pageSize κ).toNat ∣ bytes.toNat := (Nat.dvd_add_right haddr).1 (hhi ▸ h.dvd_hi)
  have hle : addr.toNat ≤ hi := hhi ▸ Nat.le_add_right ..
  obtain ⟨hok, hmapped⟩ := h.unmap_within hlo hhi.le haddr hdvd hbytes
  have hrest : Set.Ico lo hi \ Set.Ico addr.toNat hi = Set.Ico lo addr.toNat := by
    ext a
    simp only [Set.mem_sdiff, Set.mem_Ico]
    omega
  rw [hhi, hrest] at hmapped
  exact ⟨hok, K.unmap_mem h.mem .., hmapped, h.disjoint.mono_right (Set.Ico_subset_Ico_right hle),
    hlo, hle.trans h.le_limit, h.dvd_lo, haddr⟩

/-- Giving back all of the range leaves what was there before, also if some of it is gone already. -/
theorem mapped_unmap {t : κ} (ht : t ∈ K.states) (hsub : K.mapped t ⊆ K.mapped s')
    (hrest : K.mapped s' \ Set.Ico lo hi ⊆ K.mapped t) (hlo : addr.toNat = lo)
    (hhi : lo + Kernel.roundUp κ bytes.toNat = hi) :
    K.mapped (Kernel.unmap addr bytes t).2 = K.mapped s := by
  have hmapped : K.mapped (Kernel.unmap addr bytes t).2 = K.mapped t \ Set.Ico lo hi := by
    by_cases hbytes : bytes = 0
    · subst hbytes
      have hnone : Kernel.roundUp κ (0 : UInt64).toNat = 0 := Kernel.roundUp_of_dvd κ (Nat.dvd_zero _)
      rw [K.mapped_unmap_zero ht, ← hhi, hnone, Nat.add_zero, Set.Ico_self, Set.sdiff_empty]
    · have hlimit : addr.toNat + Kernel.roundUp κ bytes.toNat ≤ K.limit := by
        rw [hlo, hhi]
        exact h.le_limit
      rw [(K.unmap_of_dvd ht (hlo ▸ h.dvd_lo) hlimit hbytes).2, Kernel.pages, hlo, hhi]
  have hbefore : K.mapped s' \ Set.Ico lo hi = K.mapped s := by
    rw [h.mapped_eq, Set.union_sdiff_right, h.disjoint.sdiff_eq_left]
  rw [hmapped, ← hbefore]
  exact Set.Subset.antisymm (Set.sdiff_subset_sdiff_left hsub) fun a ha => ⟨hrest ha, ha.2⟩

end Reserves

end KernelContract

end HostServices
