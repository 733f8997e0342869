import HostServices.Proofs.Text.Split
import HostServices.Proofs.Word
import HostServices.SizeText
import Mathlib.Tactic.IntervalCases

/-!
# Sizes in text

Which texts mean a size, and which one (`parse_eq_ok_iff`): a letter may be cut off the end
(`cutLetter_sound`, `cutLetter_complete`), what stands before it is a number (`number?_eq_some_iff`),
and their product is a word. A printed size means the size it was printed from
(`denotes_render`), since its number counts the unit of its letter (`inExactUnit_mul_bytes`).
-/

namespace HostServices

/-! ## Characters of numbers and names -/

section characters

variable {c : Char}

theorem Text.isBlank_of_between (hlo : 33 ≤ c.toNat) (hhi : c.toNat ≤ 126) : isBlank c = false := by
  simp only [isBlank, Bool.or_eq_false_iff, Bool.and_eq_false_iff, decide_eq_false_iff_not,
    beq_eq_false_iff_ne]
  omega

theorem Text.isBlank_of_isDigit (h : c.isDigit = true) : isBlank c = false := by
  obtain ⟨hlo, hhi⟩ : 48 ≤ c.toNat ∧ c.toNat ≤ 57 := Char.isDigit_iff_toNat.1 h
  exact isBlank_of_between (by omega) (by omega)

theorem ne_of_isDigit {d : Char} (h : c.isDigit = true) (hd : d.isDigit = false) : c ≠ d := by
  rintro rfl
  rw [h] at hd
  cases hd

end characters

/-! ## Units -/

namespace ByteSize

/-- The power of two that a unit stands for. -/
def ByteUnit.shift : ByteUnit → Nat
  | .byte => 0
  | .kilo => 10
  | .mega => 20
  | .giga => 30

/-- A count is a whole number of its exact unit. -/
theorem inExactUnit_mul_bytes (n : Nat) : inExactUnit n * (exactUnit n).bytes = n := by
  refine Nat.div_mul_cancel (Nat.dvd_of_mod_eq_zero ?_)
  have divides {u : ByteUnit} (h : (n != 0 && n % u.bytes == 0) = true) : n % u.bytes = 0 :=
    beq_iff_eq.1 (Bool.and_eq_true_iff.1 h).2
  unfold exactUnit
  dsimp only
  split
  · exact divides ‹_›
  · split
    · exact divides ‹_›
    · split
      · exact divides ‹_›
      · exact Nat.mod_one n

end ByteSize

namespace SizeText

open ByteSize

variable {c : Char} {k : ℕ} {cs ds suffix text : List Char} {n bytes : UInt64}

/-! ## Letters -/

/-- What may stand behind the digits of a size, and the power of two that it multiplies them by. -/
def scales : List (List Char × ℕ) :=
  [([], 0), (['k'], 10), (['K'], 10), (['m'], 20), (['M'], 20), (['g'], 30), (['G'], 30)]

/-- A letter in lower case comes from itself or from the letter in upper case. -/
theorem eq_of_toLower (lower upper : Char) (hcase : upper.toNat + 32 = lower.toNat)
    (h : c.toLower = lower) : c = lower ∨ c = upper := by
  unfold Char.toLower at h
  split at h
  case isFalse => exact .inl h
  case isTrue hrange =>
    have hle : c.toNat ≤ 90 := hrange.2
    have hnumber : c.toNat + 32 = lower.toNat := by
      rw [← h]
      show c.val.toNat + 32 = (c.val + 32).toNat
      rw [UInt32.toNat_add, Nat.mod_eq_of_lt]
      · rfl
      · exact Nat.lt_of_le_of_lt (Nat.add_le_add_right hle 32) (by decide)
    exact .inr (Char.toNat_inj.1 (Nat.add_right_cancel (hnumber.trans hcase.symm)))

/-- Behind the digits stands nothing, or one letter. -/
theorem eq_nil_or_letter (h : (suffix, k) ∈ scales) :
    (suffix = [] ∧ k = 0) ∨ ∃ c, suffix = [c] ∧ shift? c = some k := by
  simp only [scales, List.mem_cons, Prod.mk.injEq, List.not_mem_nil, or_false] at h
  refine h.imp_right fun h => ?_
  obtain ⟨rfl, rfl⟩ | ⟨rfl, rfl⟩ | ⟨rfl, rfl⟩ | ⟨rfl, rfl⟩ | ⟨rfl, rfl⟩ | ⟨rfl, rfl⟩ := h <;>
    exact ⟨_, rfl, rfl⟩

theorem mem_scales_of_shift? (h : shift? c = some k) : ([c], k) ∈ scales := by
  unfold shift? at h
  split at h
  case h_1 hlower =>
    cases h
    obtain rfl | rfl := eq_of_toLower 'k' 'K' rfl hlower <;> decide
  case h_2 hlower =>
    cases h
    obtain rfl | rfl := eq_of_toLower 'm' 'M' rfl hlower <;> decide
  case h_3 hlower =>
    cases h
    obtain rfl | rfl := eq_of_toLower 'g' 'G' rfl hlower <;> decide
  case h_4 => cases h

theorem shift?_of_isDigit (h : c.isDigit = true) : shift? c = none := by
  obtain ⟨hlo, hhi⟩ : 48 ≤ c.toNat ∧ c.toNat ≤ 57 := Char.isDigit_iff_toNat.1 h
  rw [← Char.ofNat_toNat c]
  generalize c.toNat = n at hlo hhi
  interval_cases n <;> rfl

/-- What is cut off a text is nothing or a letter. -/
theorem cutLetter_sound (h : cutLetter cs = (ds, k)) :
    ∃ suffix, cs = ds ++ suffix ∧ (suffix, k) ∈ scales := by
  have hnothing (heq : (cs, 0) = (ds, k)) : ∃ suffix, cs = ds ++ suffix ∧ (suffix, k) ∈ scales := by
    cases heq
    exact ⟨[], (List.append_nil cs).symm, List.mem_cons_self⟩
  unfold cutLetter at h
  split at h
  case h_1 => exact hnothing h
  case h_2 c hlast =>
    obtain ⟨front, rfl⟩ := List.getLast?_eq_some_iff.1 hlast
    split at h
    case h_1 hshift =>
      rw [List.dropLast_concat] at h
      cases h
      exact ⟨[c], rfl, mem_scales_of_shift? hshift⟩
    case h_2 => exact hnothing h

/-- The letter behind digits is cut off. -/
theorem cutLetter_complete (sign : List Char) (hds : ds ≠ []) (hdigits : ∀ c ∈ ds, c.isDigit = true)
    (hsuffix : (suffix, k) ∈ scales) : cutLetter (sign ++ ds ++ suffix) = (sign ++ ds, k) := by
  obtain ⟨rfl, rfl⟩ | ⟨c, rfl, hshift⟩ := eq_nil_or_letter hsuffix
  · have hlast := shift?_of_isDigit (hdigits _ (List.getLast_mem hds))
    rw [List.append_nil, cutLetter, List.getLast?_append, List.getLast?_eq_some_getLast hds,
      Option.some_or]
    simp only [hlast]
  · rw [cutLetter, List.getLast?_concat]
    simp only [hshift, List.dropLast_concat]

/-! ## Numbers -/

/-- The number that digits stand for, if it is a word. -/
def wordOf? (ds : List Char) : Option UInt64 :=
  if ds ≠ [] ∧ ds.all Char.isDigit ∧ decimal ds < UInt64.size then some (UInt64.ofNat (decimal ds))
  else none

theorem wordOf?_eq_some_iff : wordOf? ds = some n ↔
    ds ≠ [] ∧ (∀ c ∈ ds, c.isDigit = true) ∧ Nat.ofDigitChars 10 ds 0 = n.toNat := by
  have hdecimal : decimal ds = Nat.ofDigitChars 10 ds 0 := rfl
  unfold wordOf?
  simp only [hdecimal, List.all_eq_true]
  constructor
  · intro h
    split at h
    case isTrue hword =>
      obtain ⟨hne, hdigits, hlt⟩ := hword
      cases h
      exact ⟨hne, hdigits, (UInt64.toNat_ofNat_of_lt' hlt).symm⟩
    case isFalse => cases h
  · rintro ⟨hne, hdigits, hvalue⟩
    rw [hvalue, if_pos ⟨hne, hdigits, n.toNat_lt⟩, UInt64.ofNat_toNat]

/-- A number without its sign. -/
def unsigned (cs : List Char) : List Char :=
  match cs with
  | '+' :: rest => rest
  | _ => cs

theorem number?_eq (cs : List Char) : number? cs = wordOf? (unsigned cs) := rfl

theorem unsigned_eq_self (h : ∀ c ∈ cs.head?, c ≠ '+') : unsigned cs = cs := by
  unfold unsigned
  split
  · exact absurd rfl (h '+' rfl)
  · rfl

/-- A number is an optional sign and digits. -/
theorem number?_eq_some_iff : number? cs = some n ↔
    ∃ sign digits, cs = sign ++ digits ∧ sign ∈ [[], ['+']] ∧ digits ≠ [] ∧
      (∀ c ∈ digits, c.isDigit = true) ∧ Nat.ofDigitChars 10 digits 0 = n.toNat := by
  rw [number?_eq]
  constructor
  · intro h
    by_cases hsign : ∀ c ∈ cs.head?, c ≠ '+'
    · rw [unsigned_eq_self hsign] at h
      exact ⟨[], cs, rfl, by decide, wordOf?_eq_some_iff.1 h⟩
    · simp only [not_forall, not_not] at hsign
      obtain ⟨c, hhead, rfl⟩ := hsign
      obtain ⟨rest, rfl⟩ := List.head?_eq_some_iff.1 (Option.mem_def.1 hhead)
      exact ⟨['+'], rest, rfl, by decide, wordOf?_eq_some_iff.1 h⟩
  · rintro ⟨sign, digits, rfl, hsign, hne, hdigits, hvalue⟩
    have hword := wordOf?_eq_some_iff.2 ⟨hne, hdigits, hvalue⟩
    simp only [List.mem_cons, List.not_mem_nil, or_false] at hsign
    obtain rfl | rfl := hsign
    · rw [List.nil_append, unsigned_eq_self fun c hc =>
        ne_of_isDigit (hdigits c (List.mem_of_mem_head? hc)) rfl]
      exact hword
    · exact hword

/-! ## Sizes -/

/-- The text means a size: between its blanks stand an optional sign, digits and at most one letter,
and the number is that many times the power of two of the letter. -/
def Denotes (text : List Char) (bytes : UInt64) : Prop :=
  ∃ sign digits suffix shift, Text.Trimmed text (sign ++ digits ++ suffix) ∧ sign ∈ [[], ['+']] ∧
    digits ≠ [] ∧ (∀ c ∈ digits, c.isDigit = true) ∧ (suffix, shift) ∈ scales ∧
    Nat.ofDigitChars 10 digits 0 * 2 ^ shift = bytes.toNat

theorem toNat_scale (h : (suffix, k) ∈ scales) : (UInt64.ofNat (1 <<< k)).toNat = 2 ^ k := by
  simp only [scales, List.mem_cons, Prod.mk.injEq, List.not_mem_nil, or_false] at h
  obtain ⟨-, rfl⟩ | ⟨-, rfl⟩ | ⟨-, rfl⟩ | ⟨-, rfl⟩ | ⟨-, rfl⟩ | ⟨-, rfl⟩ | ⟨-, rfl⟩ := h <;> rfl

/-- A size is read exactly off the texts that mean it. -/
theorem parse_eq_ok_iff : parse text = .ok bytes ↔ Denotes text bytes := by
  constructor
  · intro h
    rcases hcut : cutLetter (Text.trim text) with ⟨ds, k⟩
    unfold parse at h
    simp only [hcut] at h
    split at h
    case h_1 => cases h
    case h_2 n hnumber =>
      split at h
      case h_1 => cases h
      case h_2 m hmul =>
        obtain rfl : m = bytes := Except.ok.inj h
        obtain ⟨suffix, htrim, hsuffix⟩ := cutLetter_sound hcut
        obtain ⟨sign, digits, rfl, hsign, hne, hdigits, hvalue⟩ := number?_eq_some_iff.1 hnumber
        rw [Word.mul?_eq_some_iff, toNat_scale hsuffix, ← hvalue] at hmul
        exact ⟨sign, digits, suffix, k, Text.trim_eq_iff.1 htrim, hsign, hne, hdigits, hsuffix, hmul⟩
  · rintro ⟨sign, digits, suffix, k, htrimmed, hsign, hne, hdigits, hsuffix, hvalue⟩
    have hlt : Nat.ofDigitChars 10 digits 0 < UInt64.size :=
      Nat.lt_of_le_of_lt (Nat.le_mul_of_pos_right _ (Nat.two_pow_pos k)) (hvalue ▸ bytes.toNat_lt)
    have hword := UInt64.toNat_ofNat_of_lt' hlt
    have hnumber : number? (sign ++ digits) = some (UInt64.ofNat (Nat.ofDigitChars 10 digits 0)) :=
      number?_eq_some_iff.2 ⟨sign, digits, rfl, hsign, hne, hdigits, hword.symm⟩
    have hmul : Word.mul? (UInt64.ofNat (Nat.ofDigitChars 10 digits 0)) (UInt64.ofNat (1 <<< k)) =
        some bytes := by
      rw [Word.mul?_eq_some_iff, toNat_scale hsuffix, hword, hvalue]
    unfold parse
    simp only [Text.trim_eq_iff.2 htrimmed, cutLetter_complete sign hne hdigits hsuffix, hnumber, hmul]

/-- A size holds no colon. -/
theorem Denotes.colon_notMem (h : Denotes text bytes) : ':' ∉ text := by
  obtain ⟨sign, digits, suffix, k, ⟨⟨before, after, rfl, hbefore, hafter⟩, -, -⟩, hsign, -, hdigits,
    hsuffix, -⟩ := h
  have hsign : ':' ∉ sign := by
    simp only [List.mem_cons, List.not_mem_nil, or_false] at hsign
    obtain rfl | rfl := hsign <;> decide
  have hsuffix : ':' ∉ suffix := by
    obtain ⟨rfl, -⟩ | ⟨c, rfl, hshift⟩ := eq_nil_or_letter hsuffix
    · exact List.not_mem_nil
    · intro hcolon
      obtain rfl := List.mem_singleton.1 hcolon
      cases hshift
  have hblank : Text.isBlank ':' = false := by decide
  simp only [List.mem_append, not_or]
  exact ⟨fun h => absurd (hbefore _ h) (hblank ▸ Bool.false_ne_true),
    ⟨⟨hsign, fun h => ne_of_isDigit (hdigits _ h) rfl rfl⟩, hsuffix⟩,
    fun h => absurd (hafter _ h) (hblank ▸ Bool.false_ne_true)⟩

/-! ## Printed sizes -/

theorem isDigit_of_mem_toDigits {n : ℕ} (h : c ∈ Nat.toDigits 10 n) : c.isDigit = true :=
  Nat.isDigit_of_mem_toDigits (by decide) (Nat.le_refl 10) h

/-- A printed size is made of digits and letters of units. -/
theorem mem_render (h : c ∈ render n) : c.isDigit = true ∨ c ∈ ['k', 'm', 'g'] := by
  rcases List.mem_append.1 h with h | h
  · exact .inl (isDigit_of_mem_toDigits h)
  · refine .inr ?_
    cases hunit : exactUnit n.toNat <;> rw [hunit, letter] at h <;> simp_all

theorem render_ne_nil (n : UInt64) : render n ≠ [] :=
  List.append_ne_nil_of_left_ne_nil Nat.toDigits_ne_nil _

theorem isBlank_of_mem_render (h : c ∈ render n) : Text.isBlank c = false := by
  rcases mem_render h with hdigit | hletter
  · exact Text.isBlank_of_isDigit hdigit
  · simp only [List.mem_cons, List.not_mem_nil, or_false] at hletter
    rcases hletter with rfl | rfl | rfl <;> decide

/-- Neither a comma nor a colon stands in a printed size. -/
theorem not_mem_render (hdigit : c.isDigit = false) (hletter : c ∉ ['k', 'm', 'g']) :
    c ∉ render n := by
  intro h
  rcases mem_render h with hd | hl
  · exact ne_of_isDigit hd hdigit rfl
  · exact hletter hl

theorem letter_mem_scales (u : ByteUnit) : (letter u, u.shift) ∈ scales := by
  cases u <;> decide

/-- A printed size means the size. -/
theorem denotes_render (n : UInt64) : Denotes (render n) n := by
  have hunit : (exactUnit n.toNat).bytes = 2 ^ (exactUnit n.toNat).shift := by
    cases exactUnit n.toNat <;> rfl
  refine ⟨[], Nat.toDigits 10 (inExactUnit n.toNat), letter (exactUnit n.toNat), _,
    Text.trimmed_of_not_blank fun c hc => isBlank_of_mem_render hc, by decide, Nat.toDigits_ne_nil,
    fun c hc => isDigit_of_mem_toDigits hc, letter_mem_scales _, ?_⟩
  rw [Nat.ofDigitChars_ten_toDigits, ← hunit, inExactUnit_mul_bytes]

end SizeText

end HostServices
