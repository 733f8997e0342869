import HostServices.PosixHost
import HostServices.Proofs.AddressSpace
import HostServices.Proofs.Op

/-!
# Reserving for large pages

A reservation at an alignment takes more than is needed and gives both ends back (`run_trimTo`), and
when the kernel refuses large pages the rest is given back too. So a refused reservation leaves
everything mapped as it was. The one way to end without an answer is an alignment that is no power of
two: nothing looks at it until the range is reserved, and then the whole range stays
(`reserveSpecial_settles_iff`). This holds over every kernel that keeps `KernelContract`.
-/

namespace HostServices

namespace PosixHost

section

variable {κ α β : Type}

theorem bind_apply (c : StateM κ α) (next : α → StateM κ β) (s : κ) :
    (c >>= next) s = next (c s).1 (c s).2 := rfl

theorem run_call_bind (c : StateM κ α) (next : α → Op κ β) (s : κ) :
    (call c >>= next).run s = (next (c s).1).run (c s).2 := rfl

end

variable {κ : Type} [Kernel κ] {K : KernelContract κ} {s s' : κ}
  {raw extra bytes alignment page base addr : UInt64} {lo hi : ℕ}

/-! ## Giving both ends back -/

theorem trim_of_ne (addr : UInt64) (h : bytes ≠ 0) :
    (trim addr bytes : StateM κ (HostResult Unit)) = Kernel.unmap addr bytes :=
  if_neg h

section

variable (h : K.Reserves s lo hi s')
include h

theorem trim_front (bytes : UInt64) (hraw : raw.toNat = lo)
    (hdvd : (Kernel.pageSize κ).toNat ∣ bytes.toNat) (hhi : lo + bytes.toNat ≤ hi) :
    (trim raw bytes s').1 = .ok () ∧ K.Reserves s (lo + bytes.toNat) hi (trim raw bytes s').2 := by
  by_cases hbytes : bytes = 0
  · rw [hbytes]
    exact ⟨rfl, h⟩
  · rw [trim_of_ne raw hbytes]
    exact h.unmap_front hraw hdvd hhi hbytes

theorem trim_back (keep bytes : UInt64) (hlo : lo ≤ keep.toNat)
    (hdvd : (Kernel.pageSize κ).toNat ∣ keep.toNat) (hhi : keep.toNat + bytes.toNat = hi) :
    (trim keep bytes s').1 = .ok () ∧ K.Reserves s lo keep.toNat (trim keep bytes s').2 := by
  by_cases hbytes : bytes = 0
  · have hall : keep.toNat = hi := by rw [← hhi, hbytes]; rfl
    rw [hbytes, hall]
    exact ⟨rfl, h⟩
  · rw [trim_of_ne keep hbytes]
    exact h.unmap_back hlo hdvd hhi hbytes

end

/-- Where bytes are kept in a range that has room for their alignment besides. -/
structure Kept (raw extra bytes alignment aligned : UInt64) : Prop where
  up_eq : Alignment.up raw alignment = .ok aligned
  dvd : alignment.toNat ∣ aligned.toNat
  le : raw.toNat ≤ aligned.toNat
  toNat_keep : (aligned + bytes).toNat = aligned.toNat + bytes.toNat
  toNat_stop : (raw + extra).toNat = raw.toNat + extra.toNat
  within : aligned.toNat + bytes.toNat ≤ raw.toNat + extra.toNat

theorem kept_alignUp (hpower : Word.isPowerOfTwo alignment = true)
    (hrange : raw.toNat + extra.toNat < 2 ^ 64)
    (hextra : extra.toNat = bytes.toNat + alignment.toNat) :
    Kept raw extra bytes alignment (Word.alignUp raw alignment) := by
  have hpos := Word.toNat_pos_of_isPowerOfTwo hpower
  have hfits : raw.toNat + (alignment.toNat - 1) < 2 ^ 64 := by omega
  have hnext : (Word.alignUp raw alignment).toNat ≤ raw.toNat + (alignment.toNat - 1) := by
    rw [Word.toNat_alignUp_of_le hpower hfits]
    exact Nat.mul_div_le ..
  exact ⟨Alignment.up_of_isPowerOfTwo hpower, Word.dvd_alignUp hpower,
    (Word.isLeast_alignUp hpower hfits).1.2, Word.toNat_add_of_lt (by omega),
    Word.toNat_add_of_lt (by omega), by omega⟩

namespace Kept

variable {aligned : UInt64} (h : Kept raw extra bytes alignment aligned)
include h

theorem toNat_front : (Word.subSat aligned raw).toNat = aligned.toNat - raw.toNat := by
  rw [Word.subSat, Word.sub?, if_pos (UInt64.le_iff_toNat_le.2 h.le)]
  exact Word.toNat_sub_of_le h.le

theorem toNat_back : (raw + extra - (aligned + bytes)).toNat =
    raw.toNat + extra.toNat - (aligned.toNat + bytes.toNat) := by
  rw [Word.toNat_sub_of_le (by rw [h.toNat_keep, h.toNat_stop]; exact h.within), h.toNat_keep,
    h.toNat_stop]

/-- If both ends can be given back, that is all that happens. -/
theorem run_trimTo_of_ok (hfront : (trim raw (Word.subSat aligned raw) s).1 = .ok ())
    (hback : (trim (aligned + bytes) (raw + extra - (aligned + bytes))
      (trim raw (Word.subSat aligned raw) s).2).1 = .ok ()) :
    (trimTo raw extra bytes alignment).run s = ⟨.ok (.ok aligned),
      (trim (aligned + bytes) (raw + extra - (aligned + bytes))
        (trim raw (Word.subSat aligned raw) s).2).2, []⟩ := by
  have hword := UInt64.toNat_lt (raw + extra)
  have hstop : Checked.add raw extra = .ok (raw + extra) :=
    Checked.add_of_lt (h.toNat_stop ▸ hword)
  have hkeep : Checked.add aligned bytes = .ok (aligned + bytes) :=
    Checked.add_of_lt (Nat.lt_of_le_of_lt h.within (h.toNat_stop ▸ hword))
  have htail : Checked.sub (raw + extra) (aligned + bytes) = .ok (raw + extra - (aligned + bytes)) :=
    Checked.sub_of_le (by rw [h.toNat_keep, h.toNat_stop]; exact h.within)
  unfold trimTo
  rw [h.up_eq, Op.run_check_bind, run_call_bind, hfront]
  dsimp only
  rw [Op.add, hstop, Op.run_check_bind, Op.add, hkeep, Op.run_check_bind, htail, Op.run_check_bind,
    run_call_bind, hback]
  rfl

/-- Cutting a reserved range down leaves the bytes. -/
theorem run_trimTo (hs : K.Reserves s raw.toNat (raw.toNat + extra.toNat) s')
    (hpages : (Kernel.pageSize κ).toNat ∣ aligned.toNat)
    (hbytes : (Kernel.pageSize κ).toNat ∣ bytes.toNat) :
    ∃ s'', (trimTo raw extra bytes alignment).run s' = ⟨.ok (.ok aligned), s'', []⟩ ∧
      K.Reserves s aligned.toNat (aligned.toNat + bytes.toNat) s'' := by
  have hle := h.le
  have hwithin := h.within
  have hkeep := h.toNat_keep
  have htail := h.toNat_back
  obtain ⟨hfront, hreserved⟩ := trim_front hs (Word.subSat aligned raw) rfl
    (h.toNat_front ▸ Nat.dvd_sub hpages hs.dvd_lo) (by rw [h.toNat_front]; omega)
  rw [h.toNat_front, Nat.add_sub_cancel' hle] at hreserved
  obtain ⟨hback, hkept⟩ := trim_back hreserved (aligned + bytes) (raw + extra - (aligned + bytes))
    (by omega) (hkeep ▸ Nat.dvd_add hpages hbytes) (by omega)
  rw [hkeep] at hkept
  exact ⟨_, h.run_trimTo_of_ok hfront hback, hkept⟩

end Kept

/-! ## Reserving -/

/-- What an attempt to reserve bytes comes to: a refusal that leaves everything mapped as it was, or a
range of so many bytes where nothing was. -/
inductive Attempts (K : KernelContract κ) (s : κ) (bytes : UInt64) (P : UInt64 → Prop) :
    Outcome κ (HostResult UInt64) → Prop
  | refused (e : HostError) {s' : κ} (h : K.mapped s' = K.mapped s) :
      Attempts K s bytes P ⟨.ok (.error e), s', []⟩
  | granted {base : UInt64} {s' : κ} (hbase : P base)
      (h : K.Reserves s base.toNat (base.toNat + bytes.toNat) s') :
      Attempts K s bytes P ⟨.ok (.ok base), s', []⟩

namespace Attempts

variable {P Q : UInt64 → Prop} {out : Outcome κ (HostResult UInt64)}

theorem imp (himp : ∀ base, P base → Q base) (h : Attempts K s bytes P out) :
    Attempts K s bytes Q out := by
  cases h with
  | refused e h => exact .refused e h
  | granted hbase h => exact .granted (himp _ hbase) h

theorem of_ok (h : Attempts K s bytes P out) (hanswer : out.result = .ok (.ok base)) :
    P base ∧ K.Reserves s base.toNat (base.toNat + bytes.toNat) out.state := by
  cases h with
  | refused e h => cases hanswer
  | granted hbase h =>
    cases hanswer
    exact ⟨hbase, h⟩

end Attempts

/-! An address is a hint to some kernels: what they have mapped elsewhere is given back. -/

theorem reserveAt_of_error {e : HostError}
    (h : (Kernel.map (.fixedIfFree addr) bytes .nothing true s).1 = .error e) :
    reserveAt addr bytes s =
      (.error e, (Kernel.map (.fixedIfFree addr) bytes .nothing true s).2) := by
  unfold reserveAt
  rw [bind_apply, h]
  rfl

theorem reserveAt_of_ok (h : (Kernel.map (.fixedIfFree addr) bytes .nothing true s).1 = .ok addr) :
    reserveAt addr bytes s =
      (.ok addr, (Kernel.map (.fixedIfFree addr) bytes .nothing true s).2) := by
  unfold reserveAt
  rw [bind_apply, h]
  dsimp only
  rw [if_pos rfl]
  rfl

theorem reserveAt_of_elsewhere (hne : base ≠ addr)
    (h : (Kernel.map (.fixedIfFree addr) bytes .nothing true s).1 = .ok base) :
    ∃ e, reserveAt addr bytes s = (.error e,
      (Kernel.unmap base bytes (Kernel.map (.fixedIfFree addr) bytes .nothing true s).2).2) := by
  unfold reserveAt
  rw [bind_apply, h]
  dsimp only
  rw [if_neg hne, bind_apply]
  cases (Kernel.unmap base bytes (Kernel.map (.fixedIfFree addr) bytes .nothing true s).2).1 with
  | error e => exact ⟨e, rfl⟩
  | ok u => exact ⟨_, rfl⟩

theorem attempts_reserveAt (hs : s ∈ K.states) (hbytes : (Kernel.pageSize κ).toNat ∣ bytes.toNat)
    (addr : UInt64) : Attempts K s bytes (· = addr) ((call (reserveAt addr bytes)).run s) := by
  show Attempts K s bytes _ ⟨.ok (reserveAt addr bytes s).1, (reserveAt addr bytes s).2, []⟩
  cases hanswer : (Kernel.map (.fixedIfFree addr) bytes .nothing true s).1 with
  | error e =>
    rw [reserveAt_of_error hanswer]
    exact .refused e (K.mapped_map_of_error hs rfl hanswer)
  | ok base =>
    have hreserves := KernelContract.reserves_of_map hs rfl hanswer
    by_cases hne : base = addr
    · subst hne
      rw [Kernel.roundUp_of_dvd κ hbytes] at hreserves
      rw [reserveAt_of_ok hanswer]
      exact .granted rfl hreserves
    · obtain ⟨e, helsewhere⟩ := reserveAt_of_elsewhere hne hanswer
      rw [helsewhere]
      exact .refused e
        (hreserves.mapped_unmap hreserves.mem Set.Subset.rfl Set.sdiff_subset rfl rfl)

theorem reserve_of_ok (hs : s ∈ K.states) (h : (reserve bytes s).1 = .ok base) :
    K.Reserves s base.toNat (base.toNat + Kernel.roundUp κ bytes.toNat) (reserve bytes s).2 :=
  KernelContract.reserves_of_map hs rfl h

theorem mapped_reserve_of_error {e : HostError} (hs : s ∈ K.states)
    (h : (reserve bytes s).1 = .error e) : K.mapped (reserve bytes s).2 = K.mapped s :=
  K.mapped_map_of_error hs rfl h

theorem reserveAligned_of_overflow (h : Word.add? bytes alignment = none) (s : κ) :
    (reserveAligned bytes alignment).run s = ⟨.ok (.error (.code .invalid)), s, []⟩ := by
  unfold reserveAligned
  rw [h]
  rfl

theorem reserveAligned_of_error {e : HostError} (hextra : Word.add? bytes alignment = some extra)
    (h : (reserve extra s).1 = .error e) :
    (reserveAligned bytes alignment).run s = ⟨.ok (.error e), (reserve extra s).2, []⟩ := by
  unfold reserveAligned
  rw [hextra]
  dsimp only
  rw [run_call_bind, h]
  rfl

theorem reserveAligned_of_ok (hextra : Word.add? bytes alignment = some extra)
    (h : (reserve extra s).1 = .ok raw) :
    (reserveAligned bytes alignment).run s =
      (trimTo raw extra bytes alignment).run (reserve extra s).2 := by
  unfold reserveAligned
  rw [hextra]
  dsimp only
  rw [run_call_bind, h]

/-- A reservation comes to what is made of the range that was granted for it, if one was. -/
theorem attempts_reserveAligned_of {P : UInt64 → Prop} (hs : s ∈ K.states)
    (hgranted : ∀ extra raw, Word.add? bytes alignment = some extra →
      (reserve extra s).1 = .ok raw →
        Attempts K s bytes P ((trimTo raw extra bytes alignment).run (reserve extra s).2)) :
    Attempts K s bytes P ((reserveAligned bytes alignment).run s) := by
  cases hextra : Word.add? bytes alignment with
  | none =>
    rw [reserveAligned_of_overflow hextra]
    exact .refused _ rfl
  | some extra =>
    cases hanswer : (reserve extra s).1 with
    | error e =>
      rw [reserveAligned_of_error hextra hanswer]
      exact .refused e (mapped_reserve_of_error hs hanswer)
    | ok raw =>
      rw [reserveAligned_of_ok hextra hanswer]
      exact hgranted extra raw hextra hanswer

/-- A reservation at a power of two. -/
theorem attempts_reserveAligned (hs : s ∈ K.states) (hpower : Word.isPowerOfTwo alignment = true)
    (halignment : (Kernel.pageSize κ).toNat ∣ alignment.toNat)
    (hbytes : (Kernel.pageSize κ).toNat ∣ bytes.toNat) :
    Attempts K s bytes (fun base => alignment.toNat ∣ base.toNat)
      ((reserveAligned bytes alignment).run s) := by
  refine attempts_reserveAligned_of hs fun extra raw hextra hanswer => ?_
  have hsum := (Word.toNat_of_add? hextra).1
  have hreserves := reserve_of_ok hs hanswer
  rw [Kernel.roundUp_of_dvd κ (hsum ▸ Nat.dvd_add hbytes halignment)] at hreserves
  have hkept := kept_alignUp hpower (Nat.lt_of_le_of_lt hreserves.le_limit K.limit_lt) hsum
  obtain ⟨s'', hrun, hkeeps⟩ :=
    hkept.run_trimTo hreserves (Nat.dvd_trans halignment hkept.dvd) hbytes
  rw [hrun]
  exact .granted hkept.dvd hkeeps

/-- An alignment that is no power of two stops the reservation when the range has been reserved. -/
theorem reserveAligned_of_not_power (hpower : Word.isPowerOfTwo alignment = false)
    (hextra : Word.add? bytes alignment = some extra) (h : (reserve extra s).1 = .ok raw) :
    (reserveAligned bytes alignment).run s =
      ⟨.error (.fault .alignmentNotPowerOfTwo), (reserve extra s).2, []⟩ := by
  have hup : Alignment.up raw alignment = .error .alignmentNotPowerOfTwo := by
    rw [Alignment.up, hpower]
    rfl
  rw [reserveAligned_of_ok hextra h, trimTo, hup, Op.run_fault_bind]

/-! ## Large pages -/

/-- Pages of a size are larger than those of the kernel, and bytes are whole pages of that size. -/
structure Suitable (κ : Type) [Kernel κ] (bytes page : UInt64) : Prop where
  isPowerOfTwo : Word.isPowerOfTwo page = true
  lt : Kernel.pageSize κ < page
  isAligned : Word.isAligned bytes page = true

theorem max_of_lt (h : page < alignment) : Word.max alignment page = alignment :=
  if_neg (UInt64.not_lt.2 (UInt64.le_of_lt h))

namespace Suitable

variable (h : Suitable κ bytes page)
include h

theorem dvd_bytes_page : page.toNat ∣ bytes.toNat :=
  (Word.isAligned_iff h.isPowerOfTwo).1 h.isAligned

theorem dvd_page (K : KernelContract κ) : (Kernel.pageSize κ).toNat ∣ page.toNat :=
  Word.dvd_of_isPowerOfTwo K.isPowerOfTwo_pageSize h.isPowerOfTwo (UInt64.le_of_lt h.lt)

theorem dvd_bytes (K : KernelContract κ) : (Kernel.pageSize κ).toNat ∣ bytes.toNat :=
  Nat.dvd_trans (h.dvd_page K) h.dvd_bytes_page

/-- The larger of an alignment and the page size is a power of two, unless the alignment is larger and
is none. -/
theorem isPowerOfTwo_max (halignment : page < alignment → Word.isPowerOfTwo alignment = true) :
    Word.isPowerOfTwo (Word.max alignment page) = true := by
  unfold Word.max
  split
  · exact h.isPowerOfTwo
  · rename_i hle
    rcases UInt64.lt_or_eq_of_le (UInt64.not_lt.1 hle) with hlt | heq
    · exact halignment hlt
    · exact heq ▸ h.isPowerOfTwo

theorem dvd_max (K : KernelContract κ) (hpower : Word.isPowerOfTwo (Word.max alignment page) = true) :
    (Kernel.pageSize κ).toNat ∣ (Word.max alignment page).toNat := by
  refine Nat.dvd_trans (h.dvd_page K) (Word.dvd_of_isPowerOfTwo h.isPowerOfTwo hpower ?_)
  rw [UInt64.le_iff_toNat_le, Word.toNat_max]
  exact Nat.le_max_right ..

theorem max_ne_zero : Word.max alignment page ≠ 0 := by
  have hpos := Word.toNat_pos_of_isPowerOfTwo h.isPowerOfTwo
  intro hzero
  have hmax : max alignment.toNat page.toNat = 0 := by
    rw [← Word.toNat_max, hzero]
    rfl
  omega

end Suitable

/-- An alignment that nothing has looked at when a range is reserved for it: no address is given, and
the alignment is larger than the pages and no power of two. -/
structure Unchecked (s : κ) (bytes alignment page : UInt64) (addr : Option UInt64)
    (extra raw : UInt64) : Prop where
  suitable : Suitable κ bytes page
  addr_eq : addr = none
  lt : page < alignment
  not_isPowerOfTwo : Word.isPowerOfTwo alignment = false
  extra_eq : Word.add? bytes alignment = some extra
  reserve_eq : (reserve extra s).1 = .ok raw

section

variable {at? : Option UInt64} {executable : Bool}

/-- An address is looked at before anything is reserved there. -/
theorem attempts_reserveBase_some (hs : s ∈ K.states)
    (hbytes : (Kernel.pageSize κ).toNat ∣ bytes.toNat) (hne : alignment ≠ 0) (addr : UInt64) :
    Attempts K s bytes (· = addr) ((reserveBase bytes alignment (some addr)).run s) := by
  have htest : Alignment.test addr alignment = .ok (Word.isAligned addr alignment) := by
    rw [Alignment.test, if_neg (by simpa using hne)]
  unfold reserveBase
  dsimp only
  rw [htest, Op.run_check_bind]
  split
  · exact attempts_reserveAt hs hbytes addr
  · exact .refused _ rfl

/-- A reservation whose alignment was looked at, or that never gets to it. -/
theorem attempts_reserveBase (hs : s ∈ K.states) (hsuitable : Suitable κ bytes page)
    (h : ∀ extra raw, ¬ Unchecked s bytes alignment page at? extra raw) :
    Attempts K s bytes
      (fun base => (at? = none → (Word.max alignment page).toNat ∣ base.toNat) ∧
        ∀ addr, at? = some addr → base = addr)
      ((reserveBase bytes (Word.max alignment page) at?).run s) := by
  cases at? with
  | some addr =>
    refine (attempts_reserveBase_some hs (hsuitable.dvd_bytes K) hsuitable.max_ne_zero addr).imp ?_
    rintro base rfl
    exact ⟨nofun, fun _ heq => Option.some.inj heq⟩
  | none =>
    cases hpower : Word.isPowerOfTwo (Word.max alignment page) with
    | true =>
      exact (attempts_reserveAligned hs hpower (hsuitable.dvd_max K hpower)
        (hsuitable.dvd_bytes K)).imp fun _ hdvd => ⟨fun _ => hdvd, nofun⟩
    | false =>
      -- the page size is a power of two, so the larger of the two is the alignment
      have hlt : page < alignment := by
        by_contra hnot
        rw [hsuitable.isPowerOfTwo_max fun hlt => absurd hlt hnot] at hpower
        cases hpower
      rw [max_of_lt hlt] at hpower ⊢
      exact attempts_reserveAligned_of hs fun extra raw hextra hanswer =>
        absurd ⟨hsuitable, rfl, hlt, hpower, hextra, hanswer⟩ (h extra raw)

theorem reserveSpecial_of_unsuitable (h : ¬ Suitable κ bytes page) (s : κ) :
    (reserveSpecial bytes alignment page at? executable).run s =
      ⟨.ok (.error (.code .invalid)), s, []⟩ := by
  have hrefused : (!Word.isPowerOfTwo page || decide (page ≤ Kernel.pageSize κ) ||
      !Word.isAligned bytes page) = true := by
    by_contra hnot
    simp only [Bool.or_eq_true, Bool.not_eq_true', decide_eq_true_eq, not_or, Bool.not_eq_false,
      UInt64.not_le] at hnot
    exact h ⟨hnot.1.1, hnot.1.2, hnot.2⟩
  unfold reserveSpecial
  exact congrArg (Op.run · s) (if_pos hrefused)

theorem reserveSpecial_of_suitable (h : Suitable κ bytes page) (s : κ) :
    (reserveSpecial bytes alignment page at? executable).run s =
      (reserveBase bytes (Word.max alignment page) at? >>= fun
        | .error e => return .error e
        | .ok base => do
          match ← call (Kernel.mapLarge base bytes page (.readWrite executable)) with
          | .ok p => return .ok p
          | .error e =>
            let _ ← call (Kernel.unmap base bytes)
            return .error e : Op κ (HostResult UInt64)).run s := by
  have hpage : ¬ page ≤ Kernel.pageSize κ := UInt64.not_le.2 h.lt
  have hpasses : ¬ (!Word.isPowerOfTwo page || decide (page ≤ Kernel.pageSize κ) ||
      !Word.isAligned bytes page) = true := by
    simp [h.isPowerOfTwo, hpage, h.isAligned]
  unfold reserveSpecial
  exact congrArg (Op.run · s) (if_neg hpasses)

theorem reserveSpecial_of_refused {e : HostError} (h : Suitable κ bytes page)
    (hbase : (reserveBase bytes (Word.max alignment page) at?).run s = ⟨.ok (.error e), s', []⟩) :
    (reserveSpecial bytes alignment page at? executable).run s = ⟨.ok (.error e), s', []⟩ := by
  rw [reserveSpecial_of_suitable h, Op.run_bind_of_run hbase]
  rfl

/-- A range that was reserved is backed by large pages, or given back. -/
theorem reserveSpecial_of_granted (executable : Bool) (h : Suitable κ bytes page)
    (hbase : (reserveBase bytes (Word.max alignment page) at?).run s = ⟨.ok (.ok base), s', []⟩)
    (hreserves : K.Reserves s base.toNat (base.toNat + bytes.toNat) s') :
    ∃ answer s'', (reserveSpecial bytes alignment page at? executable).run s =
        ⟨.ok answer, s'', []⟩ ∧
      (∀ e, answer = .error e → K.mapped s'' = K.mapped s) ∧
      ∀ p, answer = .ok p → p = base ∧
        K.mapped s'' = K.mapped s ∪ Set.Ico p.toNat (p.toNat + bytes.toNat) := by
  have hround : base.toNat + Kernel.roundUp κ bytes.toNat = base.toNat + bytes.toNat := by
    rw [Kernel.roundUp_of_dvd κ (h.dvd_bytes K)]
  rw [reserveSpecial_of_suitable h, Op.run_bind_of_run hbase]
  dsimp only
  rw [run_call_bind]
  cases hanswer : (Kernel.mapLarge base bytes page (.readWrite executable) s').1 with
  | error e =>
    obtain ⟨hsub, hrest⟩ := K.mapped_mapLarge_of_error hreserves.mem h.dvd_bytes_page hanswer
    rw [Kernel.pages, hround] at hrest
    refine ⟨.error e, _, rfl, fun _ _ => ?_, fun _ hp => ?_⟩
    · exact hreserves.mapped_unmap (K.mapLarge_mem hreserves.mem ..) hsub hrest rfl hround
    · cases hp
  | ok p =>
    obtain ⟨rfl, hmapped⟩ := K.mapLarge_of_ok hreserves.mem h.dvd_bytes_page hanswer
    refine ⟨.ok p, _, rfl, fun _ he => ?_, fun p' hp => ?_⟩
    · cases he
    · -- large pages are mapped in place of the reserved range, and over all of it
      cases hp
      rw [Kernel.pages, hround, hreserves.mapped_eq, Set.union_assoc, Set.union_self] at hmapped
      exact ⟨rfl, hmapped⟩

/-- Where the alignment was not looked at, the reservation stops with the whole range reserved. -/
theorem Unchecked.run_reserveBase (h : Unchecked s bytes alignment page at? extra raw) :
    (reserveBase bytes (Word.max alignment page) at?).run s =
      ⟨.error (.fault .alignmentNotPowerOfTwo), (reserve extra s).2, []⟩ := by
  rw [h.addr_eq, max_of_lt h.lt]
  exact reserveAligned_of_not_power h.not_isPowerOfTwo h.extra_eq h.reserve_eq

theorem Unchecked.run_reserveSpecial (h : Unchecked s bytes alignment page at? extra raw) :
    (reserveSpecial bytes alignment page at? executable).run s =
      ⟨.error (.fault .alignmentNotPowerOfTwo), (reserve extra s).2, []⟩ := by
  rw [reserveSpecial_of_suitable h.suitable,
    Op.run_bind_of_error (e := .fault .alignmentNotPowerOfTwo) (by rw [h.run_reserveBase]),
    h.run_reserveBase]

/-- The call answers. If it is refused, everything is mapped as it was; if not, just the bytes are
mapped besides, where nothing was, and at the address if one was given. -/
structure Settles (K : KernelContract κ) (s : κ) (bytes : UInt64) (at? : Option UInt64)
    (out : Outcome κ (HostResult UInt64)) : Prop where
  answers : ∃ answer, out.result = .ok answer
  of_error : ∀ e, out.result = .ok (.error e) → K.mapped out.state = K.mapped s
  of_ok : ∀ p, out.result = .ok (.ok p) →
    (∀ addr, at? = some addr → p = addr) ∧
      Disjoint (K.mapped s) (Set.Ico p.toNat (p.toNat + bytes.toNat)) ∧
      K.mapped out.state = K.mapped s ∪ Set.Ico p.toNat (p.toNat + bytes.toNat)

theorem settles_of_refused {out : Outcome κ (HostResult UInt64)} {e : HostError}
    (h : out = ⟨.ok (.error e), s', []⟩) (hmapped : K.mapped s' = K.mapped s) :
    Settles K s bytes at? out := by
  rw [h]
  exact ⟨⟨_, rfl⟩, fun _ _ => hmapped, nofun⟩

/-- A call whose alignment was looked at settles. -/
theorem settles_of_checked (hs : s ∈ K.states)
    (h : ∀ extra raw, ¬ Unchecked s bytes alignment page at? extra raw) :
    Settles K s bytes at? ((reserveSpecial bytes alignment page at? executable).run s) := by
  by_cases hsuitable : Suitable κ bytes page
  · have hattempt := attempts_reserveBase hs hsuitable h
    generalize hout : (reserveBase bytes (Word.max alignment page) at?).run s = out at hattempt
    cases hattempt with
    | refused e hmapped =>
      exact settles_of_refused (reserveSpecial_of_refused hsuitable hout) hmapped
    | granted hbase hreserves =>
      obtain ⟨answer, s'', hrun, herror, hok⟩ :=
        reserveSpecial_of_granted executable hsuitable hout hreserves
      rw [hrun]
      refine ⟨⟨answer, rfl⟩, fun e he => herror e (Except.ok.inj he), fun p hp => ?_⟩
      obtain ⟨rfl, hmapped⟩ := hok p (Except.ok.inj hp)
      exact ⟨hbase.2, hreserves.disjoint, hmapped⟩
  · exact settles_of_refused (reserveSpecial_of_unsuitable hsuitable s) rfl

/-- A reservation that succeeds without an address is at a multiple of the larger of the alignment and
the page size, and what was taken besides has been given back. -/
theorem reserveBase_of_ok (hs : s ∈ K.states) (hsuitable : Suitable κ bytes page)
    (h : ((reserveBase bytes (Word.max alignment page) none).run s).result = .ok (.ok base)) :
    (Word.max alignment page).toNat ∣ base.toNat ∧
      K.Reserves s base.toNat (base.toNat + bytes.toNat)
        ((reserveBase bytes (Word.max alignment page) none).run s).state := by
  have hchecked (extra raw) : ¬ Unchecked s bytes alignment page none extra raw := by
    intro hunchecked
    rw [hunchecked.run_reserveBase] at h
    cases h
  obtain ⟨⟨hdvd, -⟩, hreserves⟩ := (attempts_reserveBase hs hsuitable hchecked).of_ok h
  exact ⟨hdvd rfl, hreserves⟩

end

end PosixHost

end HostServices
