import HostServices.Proofs.Alignment
import HostServices.SparseMemory

/-!
# What a marker tells

A read with a marker gives the marker for a fault, and also for memory that holds it. Memory holds
one value, so of two reads with different markers one differs from its marker unless both fail
(`isReadable_iff`, `readSafely_eq`). A range is looked at in steps of a page, up to its end or to the
last page that there is (`everyStep_iff`).
-/

namespace HostServices.Probe

/-! ## One address -/

/-- The four bytes around an address are readable if and only if a read of them succeeds. -/
theorem isReadable_iff (p : Probe) (addr : UInt64) :
    p.isReadable addr = true ↔ (p (Word.alignDown addr 4) .word).isSome = true := by
  unfold isReadable fetchWord
  dsimp only
  cases p (Word.alignDown addr 4) .word with
  | none => simp
  | some value => by_cases hmarker : value.toUInt32 = 0xcafebabe <;> simp [hmarker]

/-- The two reads of a safe read tell a fault from memory that holds the first marker. -/
theorem readSafely_eq (p : Probe) (addr : UInt64) : p.readSafely addr = p addr .double := by
  unfold readSafely fetchDouble
  cases p addr .double with
  | none => rfl
  | some value =>
    by_cases hmarker : value = 0x1717 <;> simp [hmarker]

/-! ## A range of addresses -/

/-- What lies a number of steps behind the first is the first, or lies so behind the next. -/
theorem exists_steps_iff {a first step : ℕ} :
    (∃ k, a = first + k * step) ↔ a = first ∨ ∃ k, a = first + step + k * step := by
  constructor
  · rintro ⟨_ | k, rfl⟩
    · exact .inl (by rw [Nat.zero_mul, Nat.add_zero])
    · exact .inr ⟨k, by rw [Nat.add_one_mul, Nat.add_comm (k * step), Nat.add_assoc]⟩
  · rintro (rfl | ⟨k, rfl⟩)
    · exact ⟨0, by rw [Nat.zero_mul, Nat.add_zero]⟩
    · exact ⟨k + 1, by rw [Nat.add_one_mul, Nat.add_comm (k * step), Nat.add_assoc]⟩

section

variable {p : Probe} {step start stop page : UInt64}

/-- The walk looks at every address below its end that lies a number of steps behind its start. -/
theorem everyStep_iff (hpos : 0 < step.toNat) (addr : UInt64) :
    p.everyStep step stop addr hpos = true ↔
      ∀ a : UInt64, (∃ k, a.toNat = addr.toNat + k * step.toNat) → a < stop →
        p.isReadable a = true := by
  induction addr using everyStep.induct step stop hpos with
  | case1 addr hlt ih =>
    rw [everyStep, if_pos hlt, Bool.and_eq_true]
    simp only [@exists_steps_iff _ addr.toNat, UInt64.toNat_inj]
    by_cases hword : addr.toNat + step.toNat < UInt64.size
    · rw [if_pos hword, ih hword, Word.toNat_add_of_lt hword]
      constructor
      · rintro ⟨hfirst, hrest⟩ a (rfl | hsteps) ha
        · exact hfirst
        · exact hrest a hsteps ha
      · intro hall
        exact ⟨hall addr (.inl rfl) hlt, fun a hsteps => hall a (.inr hsteps)⟩
    · -- the next step is no word, so no address is behind it
      rw [if_neg hword]
      constructor
      · rintro ⟨hfirst, -⟩ a (rfl | ⟨k, hk⟩) ha
        · exact hfirst
        · exact absurd (Nat.lt_of_le_of_lt (by omega) a.toNat_lt) hword
      · intro hall
        exact ⟨hall addr (.inl rfl) hlt, rfl⟩
  | case2 addr hge =>
    rw [everyStep, if_neg hge]
    refine iff_of_true rfl ?_
    rintro a ⟨k, hk⟩ ha
    rw [UInt64.lt_iff_toNat_lt] at hge ha
    omega

theorem isReadableRange_of_empty (h : stop ≤ start) (page : UInt64) :
    p.isReadableRange start stop page = .ok false :=
  if_pos h

theorem isReadableRange_of_lt (h : start < stop) (hpage : Word.isPowerOfTwo page = true) :
    p.isReadableRange start stop page = .ok (p.everyStep page stop (Word.alignDown start page)
      (Word.toNat_pos_of_isPowerOfTwo hpage)) := by
  rw [isReadableRange, if_neg (UInt64.not_le.2 h), if_pos hpage,
    dif_pos (Word.toNat_pos_of_isPowerOfTwo hpage)]

/-- The multiples of a page from its first one on. -/
theorem exists_steps_iff_dvd (hpage : Word.isPowerOfTwo page = true) {a : ℕ} :
    (∃ k, a = (Word.alignDown start page).toNat + k * page.toNat) ↔
      page.toNat ∣ a ∧ (Word.alignDown start page).toNat ≤ a := by
  constructor
  · rintro ⟨k, rfl⟩
    exact ⟨(Nat.dvd_add_right (Word.dvd_alignDown hpage)).2 (Nat.dvd_mul_left ..),
      Nat.le_add_right ..⟩
  · rintro ⟨hdvd, hle⟩
    obtain ⟨k, hk⟩ := (Nat.dvd_sub hdvd (Word.dvd_alignDown hpage))
    refine ⟨k, ?_⟩
    rw [Nat.mul_comm k, ← hk, Nat.add_sub_cancel' hle]

end

/-- Whatever memory holds: an address is readable if and only if the read of the four bytes around it
succeeds, a safe read gives what a read gives, and a range is readable if and only if it is not empty
and in each page from the one of its start up to its end the read of the first four bytes succeeds. -/
theorem probing_exact (p : Probe) :
    (∀ a, p.isReadable a = true ↔ (p (Word.alignDown a 4) .word).isSome = true) ∧
    (∀ a, p.readSafely a = p a .double) ∧
    ∀ start stop page, Word.isPowerOfTwo page = true →
      ∃ answer, p.isReadableRange start stop page = .ok answer ∧
        (answer = true ↔ start < stop ∧ ∀ a : UInt64, page.toNat ∣ a.toNat →
          Word.alignDown start page ≤ a → a < stop →
            (p (Word.alignDown a 4) .word).isSome = true) := by
  refine ⟨p.isReadable_iff, p.readSafely_eq, fun start stop page hpage => ?_⟩
  rcases UInt64.lt_or_le start stop with hlt | hempty
  · refine ⟨_, isReadableRange_of_lt hlt hpage, ?_⟩
    simp only [everyStep_iff, exists_steps_iff_dvd hpage, isReadable_iff, and_imp,
      ← UInt64.le_iff_toNat_le, hlt, true_and]
  · refine ⟨false, isReadableRange_of_empty hempty page, iff_of_false (by decide) fun h => ?_⟩
    exact UInt64.not_le.2 h.1 hempty

/-- Memory of the last two pages, with the first marker in every word. -/
def lastPages : SparseMemory :=
  ⟨fun a => if a < 0xffffffffffffe000 then none
    else some (if a % 4 = 0 then 0xbe else if a % 4 = 1 then 0xba else if a % 4 = 2 then 0xfe else 0xca)⟩

/-- The last two pages are readable up to the last address, but not the page in front of them. -/
theorem probing_exact_lastPages :
    Word.isPowerOfTwo 4096 = true ∧
      lastPages.probe 0xfffffffffffff000 .word = some 0xcafebabe ∧
      lastPages.probe.isReadable 0xfffffffffffff003 = true ∧
      lastPages.probe.isReadableRange 0xffffffffffffe010 0xffffffffffffffff 4096 = .ok true ∧
      lastPages.probe.isReadableRange 0xffffffffffffd010 0xffffffffffffffff 4096 = .ok false := by
  have hpage : Word.isPowerOfTwo 4096 = true := by decide
  obtain ⟨hreadable, -, hrange⟩ := probing_exact lastPages.probe
  obtain ⟨two, htwo, htwo'⟩ := hrange 0xffffffffffffe010 0xffffffffffffffff 4096 hpage
  obtain ⟨three, hthree, hthree'⟩ := hrange 0xffffffffffffd010 0xffffffffffffffff 4096 hpage
  have htrue : two = true := by
    refine htwo'.2 ⟨by decide, fun a hdvd hlow hhigh => ?_⟩
    have hpages : a = 0xffffffffffffe000 ∨ a = 0xfffffffffffff000 := by
      rw [← UInt64.toNat_inj, ← UInt64.toNat_inj]
      have hlow : 0xffffffffffffe000 ≤ a.toNat := UInt64.le_iff_toNat_le.1 hlow
      have hhigh : a.toNat < 0xffffffffffffffff := UInt64.lt_iff_toNat_lt.1 hhigh
      have hdvd : 4096 ∣ a.toNat := hdvd
      show a.toNat = 0xffffffffffffe000 ∨ a.toNat = 0xfffffffffffff000
      omega
    rcases hpages with rfl | rfl <;> decide +kernel
  have hfalse : three = false := by
    refine Bool.eq_false_iff.2 fun hthree => ?_
    have hfault := (hthree'.1 hthree).2 0xffffffffffffd000 (by decide) (by decide) (by decide)
    revert hfault
    decide +kernel
  exact ⟨hpage, by decide +kernel, (hreadable _).2 (by decide +kernel), htrue ▸ htwo, hfalse ▸ hthree⟩

end HostServices.Probe
