import HostServices.Proofs.Alignment
import HostServices.Proofs.VirtualMemory.BadRange
import Mathlib.Data.List.Nodup

/-!
# Touching pages

Pages are touched from the first page of a range on, in steps that the host decides on, up to the
first address that is not below the last page of that size (`Strides`). All of these are words,
whatever the range (`touches_strides`), so that touching is no more than what the host is asked for
(`run_pretouch`). With steps no larger than the pages of the caller, every page of a step in the range
is touched once and nothing behind it (`pretouch_covers`). With larger steps the first address need
not be a multiple of the step, and the last one may lie at or behind the end of the range
(`pretouch_passes_end_iff`).
-/

namespace HostServices

/-! ## Addresses in steps -/

/-- The addresses that lie a number of steps behind `first`, up to the first of them that is not
below `last`, in increasing order. -/
structure Strides (first last step : ℕ) (addresses : List UInt64) : Prop where
  mem_iff : ∀ a, a ∈ addresses ↔
    ∃ k, a.toNat = first + k * step ∧ (k = 0 ∨ a.toNat < last + step)
  increasing : addresses.Pairwise (· < ·)

namespace Strides

variable {last step : ℕ} {current a : UInt64} {addresses : List UInt64}

theorem single (h : last ≤ current.toNat) : Strides current.toNat last step [current] := by
  refine ⟨fun a => ?_, List.pairwise_singleton ..⟩
  rw [List.mem_singleton, ← UInt64.toNat_inj]
  constructor
  · intro ha
    exact ⟨0, by omega, .inl rfl⟩
  · rintro ⟨k, hk, hfirst | hbelow⟩
    · simpa [hfirst] using hk
    · -- less than one step lies between `current` and the bound, since `current` is not below `last`
      have hstep : k * step < 1 * step := by omega
      have hzero : k = 0 := by
        have := Nat.lt_of_mul_lt_mul_right hstep
        omega
      simpa [hzero] using hk

theorem cons (hlt : current.toNat < last) (h : Strides (current.toNat + step) last step addresses)
    (hpos : 0 < step) : Strides current.toNat last step (current :: addresses) := by
  refine ⟨fun a => ?_, List.pairwise_cons.2 ⟨fun a ha => ?_, h.increasing⟩⟩
  · rw [List.mem_cons, h.mem_iff, ← UInt64.toNat_inj]
    constructor
    · rintro (ha | ⟨k, hk, hend⟩)
      · exact ⟨0, by omega, .inl rfl⟩
      · refine ⟨k + 1, by rw [Nat.add_one_mul]; omega, .inr ?_⟩
        rcases hend with rfl | hbelow
        · omega
        · exact hbelow
    · rintro ⟨_ | k, hk, hend⟩
      · exact .inl (by omega)
      · refine .inr ⟨k, by rw [Nat.add_one_mul] at hk; omega, .inr ?_⟩
        exact hend.resolve_left (Nat.succ_ne_zero k)
  · obtain ⟨k, hk, -⟩ := (h.mem_iff a).1 ha
    rw [UInt64.lt_iff_toNat_lt]
    omega

section

variable {first : ℕ} (h : Strides first last step addresses)
include h

/-- The least address is the first. -/
theorem head?_eq {a : UInt64} (ha : a.toNat = first) : addresses.head? = some a := by
  have hmem : a ∈ addresses := (h.mem_iff a).2 ⟨0, by omega, .inl rfl⟩
  cases addresses with
  | nil => cases hmem
  | cons x xs =>
    obtain ⟨k, hk, -⟩ := (h.mem_iff x).1 List.mem_cons_self
    rcases List.mem_cons.1 hmem with rfl | hrest
    · rfl
    · have hlt := UInt64.lt_iff_toNat_lt.1 (List.rel_of_pairwise_cons h.increasing hrest)
      omega

/-- Between two multiples of the step, these are all multiples. -/
theorem mem_iff_of_dvd (hpos : 0 < step) (hfirst : step ∣ first) (hlast : step ∣ last)
    (hle : first ≤ last) : a ∈ addresses ↔ step ∣ a.toNat ∧ first ≤ a.toNat ∧ a.toNat ≤ last := by
  obtain ⟨m, rfl⟩ := hfirst
  obtain ⟨n, rfl⟩ := hlast
  rw [h.mem_iff]
  constructor
  · rintro ⟨k, hk, hend⟩
    have ha : a.toNat = step * (m + k) := by rw [hk, Nat.mul_add, Nat.mul_comm k]
    refine ⟨⟨_, ha⟩, by omega, ?_⟩
    rcases hend with rfl | hbelow
    · omega
    · rw [ha, ← Nat.mul_add_one] at hbelow
      rw [ha]
      exact Nat.mul_le_mul_left step (Nat.lt_succ_iff.1 (Nat.lt_of_mul_lt_mul_left hbelow))
  · rintro ⟨⟨c, hc⟩, hlow, hhigh⟩
    rw [hc] at hlow
    have hmc := Nat.le_of_mul_le_mul_left hlow hpos
    refine ⟨c - m, ?_, .inr (by omega)⟩
    rw [hc, Nat.mul_comm (c - m), ← Nat.mul_add, Nat.add_sub_cancel' hmc]

/-- With an end behind `first` and `last`, at most one address is not below the end: it lies as far
behind `last` as `first` does behind a multiple of the step. -/
theorem beyond_iff {stop : ℕ} (hpos : 0 < step) (hlast : step ∣ last) (hfirst : first < stop)
    (hend : last < stop) :
    a ∈ addresses ∧ stop ≤ a.toNat ↔
      first < last ∧ stop ≤ a.toNat ∧ a.toNat = last + first % step := by
  rw [h.mem_iff]
  obtain ⟨n, rfl⟩ := hlast
  have hsplit := Nat.div_add_mod first step
  have hmod := Nat.mod_lt first hpos
  constructor
  · rintro ⟨⟨_ | k, hk, hbelow⟩, hstop⟩
    · omega
    · -- the address is less than a step behind `last`, so the rest by which it is behind is the
      -- remainder of every address touched, the first among them
      replace hbelow := hbelow.resolve_left (Nat.succ_ne_zero k)
      obtain ⟨r, hr⟩ := Nat.exists_eq_add_of_le (hend.le.trans hstop)
      have hrest : first % step = r := by
        rw [← Nat.add_mul_mod_self_right first (k + 1), ← hk, hr, Nat.mul_add_mod]
        exact Nat.mod_eq_of_lt (by omega)
      rw [Nat.add_one_mul] at hk
      exact ⟨by omega, hstop, by omega⟩
  · rintro ⟨hlt, hstop, ha⟩
    have hle : first / step ≤ n := Nat.div_le_of_le_mul hlt.le
    refine ⟨⟨n - first / step, ?_, .inr (by omega)⟩, hstop⟩
    have hback := Nat.mul_le_mul_left step hle
    rw [Nat.sub_mul, Nat.mul_comm n, Nat.mul_comm (first / step)]
    omega

end

end Strides

namespace VirtualMemory

/-- With room for a step behind `last`, each step is a word. -/
theorem touches_strides {last step : UInt64} (current : UInt64) (positive : step ≠ 0)
    (hroom : last.toNat + step.toNat ≤ 2 ^ 64) :
    (touches last step current positive).2 = true ∧
      Strides current.toNat last.toNat step.toNat (touches last step current positive).1 := by
  fun_induction touches last step current positive with
  | case1 current hlt hword rest fits hrest ih =>
    have hpos : step.toNat ≠ 0 := by simpa [← UInt64.toNat_inj] using positive
    rw [Word.toNat_add_of_lt hword, hrest] at ih
    exact ⟨ih.1, ih.2.cons (UInt64.lt_iff_toNat_lt.1 hlt) (Nat.pos_of_ne_zero hpos)⟩
  | case2 current hlt hbig =>
    -- a step from below `last` ends below `last + step`, which is at most `2 ^ 64`
    have hlast := UInt64.lt_iff_toNat_lt.1 hlt
    have hword : current.toNat + step.toNat < 2 ^ 64 := by omega
    exact absurd hword hbig
  | case3 current hle =>
    exact ⟨rfl, .single (UInt64.le_iff_toNat_le.1 (UInt64.not_lt.1 hle))⟩

/-! ## What the host is asked -/

section

variable {π α β γ : Type}

theorem run_onHost (op : Op π α) (v : VirtualMemory π) :
    (onHost op).run v =
      ⟨(op.run v.host).result, { v with host := (op.run v.host).state }, (op.run v.host).events⟩ := rfl

theorem onHost_bind (op : Op π α) (next : α → Op π β) :
    onHost (op >>= next) = onHost op >>= fun a => onHost (next a) := by
  funext v
  show (onHost (op >>= next)).run v = (onHost op >>= fun a => onHost (next a)).run v
  cases hresult : (op.run v.host).result with
  | ok a =>
    have honHost : ((onHost op).run v).result = .ok a := hresult
    rw [run_onHost, Op.run_bind_of_ok hresult, Op.run_bind_of_ok honHost]
    rfl
  | error e =>
    have honHost : ((onHost op).run v).result = .error e := hresult
    rw [run_onHost, Op.run_bind_of_error hresult, Op.run_bind_of_error honHost]
    rfl

theorem onHost_forM (f : γ → Op π PUnit) (l : List γ) :
    onHost (l.forM f) = l.forM fun a => onHost (f a) := by
  induction l with
  | nil => rfl
  | cons x xs ih =>
    show onHost (f x >>= fun _ => xs.forM f) = onHost (f x) >>= fun _ => xs.forM fun a => onHost (f a)
    rw [onHost_bind, ih]

end

variable {π : Type} [MemoryHost π] {v : VirtualMemory π} {start stop page step : UInt64}

/-- The host is asked how far apart to touch a range, and then to touch addresses in their order. -/
def touching (start stop page : UInt64) (addresses : List UInt64) : Op π Unit := do
  let _ ← MemoryHost.touchSize (Word.alignDown start page) (Word.alignDown (stop - 1) page) page
  addresses.forM MemoryHost.touch

/-- Asked how far apart to touch the pages of a range, the host answers `step`. -/
def HostStep (v : VirtualMemory π) (start stop page step : UInt64) : Prop :=
  ((MemoryHost.touchSize (Word.alignDown start page) (Word.alignDown (stop - 1) page) page).run
    v.host).result = .ok step

theorem HostStep.onHost (h : HostStep v start stop page step) :
    ((onHost (MemoryHost.touchSize (Word.alignDown start page) (Word.alignDown (stop - 1) page)
      page)).run v).result = .ok step :=
  h

theorem pretouch_eq (hlt : start < stop) (hpage : Word.isPowerOfTwo page = true) (hword : 4 ≤ page) :
    pretouch (π := π) start stop page = (do
      let step ← onHost (MemoryHost.touchSize (Word.alignDown start page)
        (Word.alignDown (stop - 1) page) page)
      if h : step = 0 then return else touchEvery (Word.alignDown start page) stop step h) := by
  unfold pretouch
  rw [if_neg (UInt64.not_lt.2 (UInt64.le_of_lt hlt)), if_neg (by simp [hpage]),
    if_neg (UInt64.not_lt.2 hword), if_neg (UInt64.ne_of_lt hlt)]

/-- Where every step is a word, the addresses are touched and nothing else is done. -/
theorem touchEvery_eq {first : UInt64} {positive : step ≠ 0} (hstep : Word.isPowerOfTwo step = true)
    (hfits : (touches (Word.alignDown (stop - 1) step) step first positive).2 = true) :
    touchEvery (π := π) first stop step positive =
      onHost ((touches (Word.alignDown (stop - 1) step) step first positive).1.forM
        MemoryHost.touch) := by
  have hlast : Alignment.down (stop - 1) step = .ok (Word.alignDown (stop - 1) step) := if_pos hstep
  unfold touchEvery
  rw [hlast, onHost_forM]
  show (do
    (touches (Word.alignDown (stop - 1) step) step first positive).1.forM
      fun a => onHost (MemoryHost.touch a)
    if !(touches (Word.alignDown (stop - 1) step) step first positive).2 then
      Op.stop (.fault .addOverflow)) = _
  rw [hfits]
  exact Op.bind_pure_self _

/-- A range is touched in steps from its first page on, and nothing else is done. -/
theorem run_pretouch (hlt : start < stop) (hpage : Word.isPowerOfTwo page = true) (hword : 4 ≤ page)
    (hstep : Word.isPowerOfTwo step = true) (hanswer : HostStep v start stop page step)
    (positive : step ≠ 0) :
    (pretouch start stop page).run v =
      (onHost (touching start stop page (touches (Word.alignDown (stop - 1) step) step
        (Word.alignDown start page) positive).1)).run v := by
  have hroom : (Word.alignDown (stop - 1) step).toNat + step.toNat ≤ 2 ^ 64 :=
    Word.alignDown_add_le hstep
  rw [pretouch_eq hlt hpage hword, touching, onHost_bind, Op.run_bind_of_ok hanswer.onHost,
    Op.run_bind_of_ok hanswer.onHost, dif_neg positive,
    touchEvery_eq hstep (touches_strides _ positive hroom).1]

theorem exists_strides (hlt : start < stop) (hpage : Word.isPowerOfTwo page = true)
    (hword : 4 ≤ page) (hstep : Word.isPowerOfTwo step = true)
    (hanswer : HostStep v start stop page step) :
    ∃ addresses, (pretouch start stop page).run v =
        (onHost (touching start stop page addresses)).run v ∧
      Strides (Word.alignDown start page).toNat (Word.alignDown (stop - 1) step).toNat step.toNat
        addresses := by
  have hne : step ≠ 0 := by
    rintro rfl
    exact absurd hstep (by decide)
  exact ⟨_, run_pretouch hlt hpage hword hstep hanswer hne,
    (touches_strides _ hne (Word.alignDown_add_le hstep)).2⟩

/-- Without a distance nothing is touched. -/
theorem run_pretouch_of_zero (hlt : start < stop) (hpage : Word.isPowerOfTwo page = true)
    (hword : 4 ≤ page) (hanswer : HostStep v start stop page 0) :
    (pretouch start stop page).run v = (onHost (touching start stop page [])).run v := by
  rw [pretouch_eq hlt hpage hword, touching, onHost_bind, Op.run_bind_of_ok hanswer.onHost,
    Op.run_bind_of_ok hanswer.onHost, dif_pos rfl]
  rfl

theorem run_pretouch_self (hpage : Word.isPowerOfTwo page = true) (hword : 4 ≤ page) (a : UInt64)
    (v : VirtualMemory π) : (pretouch a a page).run v = ⟨.ok (), v, []⟩ := by
  unfold pretouch
  rw [if_neg (UInt64.lt_irrefl a), if_neg (by simp [hpage]), if_neg (UInt64.not_lt.2 hword),
    if_pos rfl]
  rfl

/-! ## Which pages are touched -/

/-- The addresses are the multiples of the step from the first page of `[start, stop)` on. Each page
of that size that meets the range is touched once, at its first word, and nothing behind the range. -/
structure Covering (start stop page step : UInt64) (addresses : List UInt64) : Prop where
  head : addresses.head? = some (Word.alignDown start page)
  increasing : addresses.Pairwise (· < ·)
  mem_iff : ∀ a, a ∈ addresses ↔
    step.toNat ∣ a.toNat ∧ Word.alignDown start page ≤ a ∧ a ≤ Word.alignDown (stop - 1) step
  once : ∀ b, start ≤ b → b < stop → addresses.count (Word.alignDown b step) = 1
  within : ∀ a ∈ addresses, a < stop

theorem covering_of_strides {addresses : List UInt64} (hlt : start < stop)
    (hpage : Word.isPowerOfTwo page = true) (hstep : Word.isPowerOfTwo step = true)
    (hle : step ≤ page)
    (h : Strides (Word.alignDown start page).toNat (Word.alignDown (stop - 1) step).toNat step.toNat
      addresses) : Covering start stop page step addresses := by
  have hrange := UInt64.lt_iff_toNat_lt.1 hlt
  have hend : (stop - 1).toNat = stop.toNat - 1 := Word.toNat_sub_one (by omega)
  have hfirst : step.toNat ∣ (Word.alignDown start page).toNat :=
    Nat.dvd_trans (Word.dvd_of_isPowerOfTwo hstep hpage hle) (Word.dvd_alignDown hpage)
  have hbelow : (Word.alignDown start page).toNat ≤ start.toNat := Word.alignDown_le hpage
  have hlast : IsGreatest {n | step.toNat ∣ n ∧ n ≤ (stop - 1).toNat} _ :=
    Word.isGreatest_alignDown hstep
  have hmem (a : UInt64) : a ∈ addresses ↔
      step.toNat ∣ a.toNat ∧ Word.alignDown start page ≤ a ∧ a ≤ Word.alignDown (stop - 1) step := by
    rw [h.mem_iff_of_dvd (Word.toNat_pos_of_isPowerOfTwo hstep) hfirst hlast.1.1
      (hlast.2 ⟨hfirst, by omega⟩), UInt64.le_iff_toNat_le, UInt64.le_iff_toNat_le]
  refine ⟨h.head?_eq rfl, h.increasing, hmem, fun b hstart hstop => ?_, fun a ha => ?_⟩
  · have hnodup : addresses.Nodup := h.increasing.imp UInt64.ne_of_lt
    apply List.count_eq_one_of_mem hnodup
    have hb : IsGreatest {n | step.toNat ∣ n ∧ n ≤ b.toNat} _ := Word.isGreatest_alignDown hstep
    rw [UInt64.le_iff_toNat_le] at hstart
    rw [UInt64.lt_iff_toNat_lt] at hstop
    rw [hmem, UInt64.le_iff_toNat_le, UInt64.le_iff_toNat_le]
    refine ⟨hb.1.1, hb.2 ⟨hfirst, by omega⟩, hlast.2 ⟨hb.1.1, ?_⟩⟩
    have := hb.1.2
    omega
  · have htop := UInt64.le_iff_toNat_le.1 ((hmem a).1 ha).2.2
    have := hlast.1.2
    rw [UInt64.lt_iff_toNat_lt]
    omega

/-- If the host answers with a step no larger than the pages of the caller, every page of that size
that meets the range is touched once. With step zero nothing is touched, and for an empty range the
host is not even asked. In each case the calls to the host are all that is done: no sum on the way
leaves the words. -/
theorem pretouch_covers (hpage : Word.isPowerOfTwo page = true) (hword : 4 ≤ page) :
    (start < stop ∧ HostStep v start stop page step ∧ Word.isPowerOfTwo step = true ∧ step ≤ page →
      ∃ addresses, Covering start stop page step addresses ∧
        (pretouch start stop page).run v = (onHost (touching start stop page addresses)).run v) ∧
    (start < stop ∧ HostStep v start stop page 0 →
      (pretouch start stop page).run v = (onHost (touching start stop page [])).run v) ∧
    (pretouch start start page).run v = ⟨.ok (), v, []⟩ := by
  refine ⟨?_, ?_, run_pretouch_self hpage hword start v⟩
  · rintro ⟨hlt, hanswer, hstep, hle⟩
    obtain ⟨addresses, hrun, hstrides⟩ := exists_strides hlt hpage hword hstep hanswer
    exact ⟨addresses, covering_of_strides hlt hpage hstep hle hstrides, hrun⟩
  · rintro ⟨hlt, hanswer⟩
    exact run_pretouch_of_zero hlt hpage hword hanswer

/-- A recording host that has pages touched in steps of a size, under a manager that tracks. -/
def stepping (step : UInt64) : VirtualMemory Recorder :=
  { recording with host := { touchSize := some step } }

/-- Steps of half a page, up to the last byte but one of the address space. -/
theorem pretouch_covers_topPages :
    (0xffffffffffffe005 : UInt64) < Word.top ∧ Word.isPowerOfTwo 4096 = true ∧
      HostStep (stepping 2048) 0xffffffffffffe005 Word.top 4096 2048 ∧
      ∃ addresses, Covering 0xffffffffffffe005 Word.top 4096 2048 addresses ∧
        (pretouch 0xffffffffffffe005 Word.top 4096).run (stepping 2048) =
          (onHost (touching 0xffffffffffffe005 Word.top 4096 addresses)).run (stepping 2048) := by
  have hrange : (0xffffffffffffe005 : UInt64) < Word.top := by decide
  have hpage : Word.isPowerOfTwo 4096 = true := by decide
  have hanswer : HostStep (stepping 2048) 0xffffffffffffe005 Word.top 4096 2048 := rfl
  refine ⟨hrange, hpage, hanswer, (pretouch_covers hpage (by decide)).1 ?_⟩
  exact ⟨hrange, hanswer, by decide, by decide⟩

/-! ## Touching behind the end -/

/-- With steps of any size, no sum on the way leaves the words. An address at or behind the end is
touched if and only if the first page lies below the last multiple of the step in the range, and the
address lies as far behind that multiple as the first page does behind one. So there is one such
address at most, and none when the first page begins at a multiple of the step. -/
theorem pretouch_passes_end_iff (hlt : start < stop) (hpage : Word.isPowerOfTwo page = true)
    (hword : 4 ≤ page) (hstep : Word.isPowerOfTwo step = true)
    (hanswer : HostStep v start stop page step) :
    ∃ addresses, (pretouch start stop page).run v =
        (onHost (touching start stop page addresses)).run v ∧
      Strides (Word.alignDown start page).toNat (Word.alignDown (stop - 1) step).toNat step.toNat
        addresses ∧
      ∀ a, a ∈ addresses ∧ stop ≤ a ↔
        Word.alignDown start page < Word.alignDown (stop - 1) step ∧ stop ≤ a ∧
          a.toNat = (Word.alignDown (stop - 1) step).toNat +
            (Word.alignDown start page).toNat % step.toNat := by
  obtain ⟨addresses, hrun, hstrides⟩ := exists_strides hlt hpage hword hstep hanswer
  have hrange := UInt64.lt_iff_toNat_lt.1 hlt
  have hend : (stop - 1).toNat = stop.toNat - 1 := Word.toNat_sub_one (by omega)
  have hfirst : (Word.alignDown start page).toNat ≤ start.toNat := Word.alignDown_le hpage
  have hlast : (Word.alignDown (stop - 1) step).toNat ≤ (stop - 1).toNat := Word.alignDown_le hstep
  refine ⟨addresses, hrun, hstrides, fun a => ?_⟩
  rw [UInt64.le_iff_toNat_le, UInt64.lt_iff_toNat_lt]
  exact hstrides.beyond_iff (Word.toNat_pos_of_isPowerOfTwo hstep) (Word.dvd_alignDown hstep)
    (by omega) (by omega)

/-- Steps of two pages from the fourth page on, and the range ends behind the first byte of the
sixth: that one is the last that is touched. -/
theorem pretouch_passes_end_iff_firstByte :
    (0x3000 : UInt64) < 0x5001 ∧ Word.isPowerOfTwo 4096 = true ∧ Word.isPowerOfTwo 8192 = true ∧
      HostStep (stepping 8192) 0x3000 0x5001 4096 8192 ∧
      ∃ addresses, (pretouch 0x3000 0x5001 4096).run (stepping 8192) =
          (onHost (touching 0x3000 0x5001 4096 addresses)).run (stepping 8192) ∧
        ∀ a ∈ addresses, a < 0x5001 := by
  have hrange : (0x3000 : UInt64) < 0x5001 := by decide
  have hpage : Word.isPowerOfTwo 4096 = true := by decide
  have hstep : Word.isPowerOfTwo 8192 = true := by decide
  have hanswer : HostStep (stepping 8192) 0x3000 0x5001 4096 8192 := rfl
  obtain ⟨addresses, hrun, -, hbeyond⟩ :=
    pretouch_passes_end_iff hrange hpage (by decide) hstep hanswer
  refine ⟨hrange, hpage, hstep, hanswer, addresses, hrun, fun a ha => ?_⟩
  by_contra hstop
  obtain ⟨-, hle, hlast⟩ := (hbeyond a).1 ⟨ha, UInt64.not_lt.1 hstop⟩
  have hfive : a.toNat = 0x5000 := hlast
  have hsix : 0x5001 ≤ a.toNat := UInt64.le_iff_toNat_le.1 hle
  omega

/-- Steps of two pages from the second page on: when the range ends with the third, the fourth is
touched. -/
theorem wideSteps_pass_end :
    (0x1000 : UInt64) < 0x3000 ∧ Word.isPowerOfTwo 4096 = true ∧ Word.isPowerOfTwo 8192 = true ∧
      HostStep (stepping 8192) 0x1000 0x3000 4096 8192 ∧
      ((pretouch 0x1000 0x3000 4096).run (stepping 8192)).state.host.touched = [0x3000, 0x1000] := by
  have hrange : (0x1000 : UInt64) < 0x3000 := by decide
  have hpage : Word.isPowerOfTwo 4096 = true := by decide
  have hstep : Word.isPowerOfTwo 8192 = true := by decide
  have hanswer : HostStep (stepping 8192) 0x1000 0x3000 4096 8192 := rfl
  have hne : (8192 : UInt64) ≠ 0 := by decide
  have htouches : touches 0x2000 8192 0x1000 hne = ([0x1000, 0x3000], true) := by
    rw [touches, if_pos (by decide), if_pos (by decide), touches, if_neg (by decide)]
    rfl
  refine ⟨hrange, hpage, hstep, hanswer, ?_⟩
  rw [run_pretouch hrange hpage (by decide) hstep hanswer hne]
  show ((onHost (touching 0x1000 0x3000 4096 (touches 0x2000 8192 0x1000 hne).1)).run
    (stepping 8192)).state.host.touched = _
  rw [htouches]
  rfl

end VirtualMemory

end HostServices
