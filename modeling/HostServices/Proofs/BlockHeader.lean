import HostServices.Ledger
import HostServices.Proofs.Memory

/-!
# The bytes around a block

A tracked block lies in a host block that is eighteen bytes longer: sixteen in front of the user's
bytes and two behind them. These in-band bytes and the user's make up the host block and have none
in common, if its length is a word (`inBand_or_user`, `not_user_of_inBand`). A check of a block
reads no other bytes (`inspectBlock_congr`), a fresh header passes it (`inspectBlock_install`), and
marks turned dead and live again are what they were (`setMarks_live_of_dead`).
-/

namespace HostServices

open Memory (InRange SameBytes)

namespace BlockHeader

variable {m m' : Memory} {p n a : UInt64} {b : LiveBlock} {marks : Marks}

/-! ## Where they are -/

theorem outerOf_innerOf (p : UInt64) : outerOf (innerOf p) = p :=
  UInt64.add_sub_cancel p headerSize

theorem innerOf_outerOf (p : UInt64) : innerOf (outerOf p) = p :=
  UInt64.sub_add_cancel p headerSize

theorem outerOf_inj {p q : UInt64} (h : outerOf p = outerOf q) : p = q := by
  rw [← innerOf_outerOf p, h, innerOf_outerOf]

/-- An address in the header or the footer of the block at `p`. -/
def InBand (p n a : UInt64) : Prop :=
  InRange (outerOf p) 16 a ∨ InRange (p + n) 2 a

/-- An address in the host block around the block at `p`. -/
def Around (p n a : UInt64) : Prop :=
  InRange (outerOf p) (n.toNat + 18) a

section places

variable (hn : n.toNat + 18 < 2 ^ 64)
include hn

theorem inRange_user_iff :
    InRange p n.toNat a ↔ 16 ≤ (a - outerOf p).toNat ∧ (a - outerOf p).toNat < n.toNat + 16 := by
  have hp : a - p = a - outerOf p - 16 := by unfold outerOf headerSize; grind
  have hlt := (a - outerOf p).toNat_lt
  rw [InRange, hp, UInt64.toNat_sub, show (16 : UInt64).toNat = 16 from rfl]
  omega

theorem inRange_footer_iff :
    InRange (p + n) 2 a ↔
      n.toNat + 16 ≤ (a - outerOf p).toNat ∧ (a - outerOf p).toNat < n.toNat + 18 := by
  have hp : a - (p + n) = a - outerOf p - 16 - n := by unfold outerOf headerSize; grind
  have hlt := (a - outerOf p).toNat_lt
  rw [InRange, hp, UInt64.toNat_sub, UInt64.toNat_sub, show (16 : UInt64).toNat = 16 from rfl]
  omega

theorem around_of_inBand (h : InBand p n a) : Around p n a := by
  rw [InBand, inRange_footer_iff hn] at h
  unfold Around InRange at *
  omega

theorem around_of_user (h : InRange p n.toNat a) : Around p n a := by
  rw [inRange_user_iff hn] at h
  unfold Around InRange
  omega

theorem inBand_or_user (h : Around p n a) : InBand p n a ∨ InRange p n.toNat a := by
  rw [InBand, inRange_footer_iff hn, inRange_user_iff hn]
  unfold Around InRange at *
  omega

theorem not_user_of_inBand (h : InBand p n a) : ¬ InRange p n.toNat a := by
  rw [InBand, inRange_footer_iff hn] at h
  rw [inRange_user_iff hn]
  unfold InRange at h
  omega

end places

/-! ## Checks -/

theorem inspectBlock_eq_ok_iff :
    Ledger.inspectBlock m p b = .ok () ↔
      read m p = b.header ∧ readFooter m p b.size = live.footer := by
  constructor
  · intro h
    simp only [Ledger.inspectBlock] at h
    split at h
    · cases h
    split at h
    · cases h
    split at h
    · cases h
    split at h
    · cases h
    split at h
    · cases h
    rename_i hcanary hsize hcategory hmarker hfooter
    rw [Decidable.not_not] at *
    refine ⟨?_, hfooter⟩
    show mk (read m p).size (read m p).marker (read m p).category (read m p).canary = _
    rw [hcanary, hsize, hcategory, hmarker]
  · rintro ⟨hheader, hfooter⟩
    unfold Ledger.inspectBlock
    simp only [hheader, hfooter, ne_eq, not_true_eq_false, if_false]
    rfl

/-- A header, from where the host block starts. -/
theorem read_eq (m : Memory) (p : UInt64) :
    read m p = {
      size := UInt64.ofNat (m.number (outerOf p + UInt64.ofNat 0) 8)
      marker := UInt32.ofNat (m.number (outerOf p + UInt64.ofNat 8) 4)
      category := m (outerOf p + UInt64.ofNat 12)
      canary := UInt16.ofNat (m.number (outerOf p + UInt64.ofNat 14) 2) } := by
  have at_ (k : Nat) (hk : k ≤ 16) : p - UInt64.ofNat (16 - k) = outerOf p + UInt64.ofNat k := by
    rw [UInt64.ofNat_sub hk]
    unfold outerOf headerSize
    grind
  rw [← at_ 0 (by decide), ← at_ 8 (by decide), ← at_ 12 (by decide), ← at_ 14 (by decide)]
  rfl

theorem read_congr (h : SameBytes m m' (outerOf p) 16) : read m' p = read m p := by
  have number (k w : Nat) (hk : k + w ≤ 16) :
      m'.number (outerOf p + UInt64.ofNat k) w = m.number (outerOf p + UInt64.ofNat k) w :=
    (h.part hk (by decide)).number (by omega)
  rw [read_eq, read_eq, number 0 8 (by decide), number 8 4 (by decide), number 14 2 (by decide),
    h.apply (by decide) (by decide)]

theorem readFooter_congr (h : SameBytes m m' (p + n) 2) : readFooter m' p n = readFooter m p n :=
  congrArg UInt16.ofNat (h.number (by decide))

/-- A check reads the in-band bytes only. -/
theorem inspectBlock_congr (h : ∀ a, InBand p b.size a → m' a = m a) :
    Ledger.inspectBlock m' p b = Ledger.inspectBlock m p b := by
  unfold Ledger.inspectBlock
  rw [read_congr fun a ha => h a (.inl ha), readFooter_congr fun a ha => h a (.inr ha)]

/-! ## Fresh headers -/

theorem length_encode (h : BlockHeader) : h.encode.length = 16 := by
  simp [encode, Memory.length_littleEndian]

/-- The header that was written is the header that is read. -/
theorem read_write_encode (h : BlockHeader) (m : Memory) (p : UInt64) :
    read (m.write (outerOf p) h.encode.toArray) p = h := by
  have hsize : h.encode.toArray.size = 16 := h.length_encode
  have number (k w : Nat) (hk : k + w ≤ 16) :
      (m.write (outerOf p) h.encode.toArray).number (outerOf p + UInt64.ofNat k) w =
        Memory.ofLittleEndian ((h.encode.drop k).take w) :=
    congrArg Memory.ofLittleEndian (Memory.read_write (hsize.symm ▸ hk) (hsize.symm ▸ by decide))
  have hcategory : m.write (outerOf p) h.encode.toArray (outerOf p + UInt64.ofNat 12) = h.category :=
    Memory.write_add (hsize.symm ▸ by decide) (hsize.symm ▸ by decide)
  rw [read_eq, number 0 8 (by decide), number 8 4 (by decide), number 14 2 (by decide), hcategory,
    show (h.encode.drop 0).take 8 = Memory.littleEndian 8 h.size.toNat from rfl,
    show (h.encode.drop 8).take 4 = Memory.littleEndian 4 h.marker.toNat from rfl,
    show (h.encode.drop 14).take 2 = Memory.littleEndian 2 h.canary.toNat from rfl]
  simp only [Memory.ofLittleEndian_littleEndian]
  rw [Nat.mod_eq_of_lt (show _ < 1 <<< (8 * 8) from h.size.toNat_lt),
    Nat.mod_eq_of_lt (show _ < 1 <<< (8 * 4) from h.marker.toNat_lt),
    Nat.mod_eq_of_lt (show _ < 1 <<< (8 * 2) from h.canary.toNat_lt),
    UInt64.ofNat_toNat, UInt32.ofNat_toNat, UInt16.ofNat_toNat]

theorem install_outerOf (h : BlockHeader) (m : Memory) (p : UInt64) :
    h.install m (outerOf p) =
      (m.write (outerOf p) h.encode.toArray).writeNumber (p + h.size) 2 live.footer.toNat := by
  rw [install, innerOf_outerOf]

/-- The footer does not reach into the header. -/
theorem read_install {h : BlockHeader} (hn : h.size.toNat + 18 < 2 ^ 64) :
    read (h.install m (outerOf p)) p = h := by
  rw [install_outerOf]
  refine (read_congr fun a ha => Memory.writeNumber_of_not_inRange fun hfooter => ?_).trans
    (read_write_encode h m p)
  have hfooter := (inRange_footer_iff hn).1 hfooter
  unfold InRange at ha
  omega

theorem readFooter_install {h : BlockHeader} :
    readFooter (h.install m (outerOf p)) p h.size = live.footer := by
  rw [install_outerOf, readFooter, Memory.number_writeNumber (by decide) (by decide)]
  rfl

/-- A fresh block passes its check. -/
theorem inspectBlock_install (hn : b.size.toNat + 18 < 2 ^ 64) :
    Ledger.inspectBlock (b.header.install m (outerOf p)) p b = .ok () :=
  inspectBlock_eq_ok_iff.2 ⟨read_install hn, readFooter_install⟩

/-- A header is written on in-band bytes only. -/
theorem install_of_not_inBand {h : BlockHeader} (ha : ¬ InBand p h.size a) :
    h.install m (outerOf p) a = m a := by
  have hsize : h.encode.toArray.size = 16 := h.length_encode
  rw [install_outerOf]
  exact (Memory.writeNumber_of_not_inRange fun hin => ha (.inr hin)).trans
    (Memory.write_of_not_inRange fun hin => ha (.inl (hsize ▸ hin)))

/-- What a header is written on does not matter. -/
theorem install_of_inBand {h : BlockHeader} (ha : InBand p h.size a) (m m' : Memory) :
    h.install m (outerOf p) a = h.install m' (outerOf p) a := by
  have hsize : h.encode.toArray.size = 16 := h.length_encode
  rw [install_outerOf, install_outerOf]
  by_cases hfooter : InRange (p + h.size) 2 a
  · exact Memory.writeNumber_of_inRange hfooter _ _
  · rw [Memory.writeNumber_of_not_inRange hfooter, Memory.writeNumber_of_not_inRange hfooter]
    exact Memory.write_of_inRange (hsize.symm ▸ ha.resolve_right hfooter) _ _

/-- The user's bytes are as they were when the header is there. -/
theorem read_install_user {outer : UInt64} {len : Nat} (hn : b.size.toNat + 18 < 2 ^ 64)
    (hlen : len ≤ b.size.toNat) :
    (b.header.install m outer).read (innerOf outer) len = m.read (innerOf outer) len := by
  refine Memory.SameBytes.read (fun a ha => ?_) (Nat.le_of_lt (Nat.lt_of_le_of_lt hlen (by omega)))
  have hband := install_of_not_inBand (m := m) (p := innerOf outer) (h := b.header)
    fun hband => not_user_of_inBand hn hband (Nat.lt_of_lt_of_le ha hlen)
  rwa [outerOf_innerOf] at hband

/-! ## Marks -/

/-- An address of the canary or of the footer. -/
def Marked (p n a : UInt64) : Prop :=
  InRange (p - 2) 2 a ∨ InRange (p + n) 2 a

/-- The canary, from where the host block starts. -/
theorem canary_place (p : UInt64) : p - 2 = outerOf p + UInt64.ofNat 14 := by
  unfold outerOf headerSize
  grind

theorem inBand_of_marked (h : Marked p n a) : InBand p n a := by
  refine h.imp_left fun h => ?_
  rw [canary_place] at h
  exact h.of_part (by decide) (by decide)

theorem setMarks_of_not_marked (h : ¬ Marked p n a) : setMarks m p n marks a = m a :=
  (Memory.writeNumber_of_not_inRange fun ha => h (.inr ha)).trans
    (Memory.writeNumber_of_not_inRange fun ha => h (.inl ha))

/-- The user's bytes are as they were when the marks are there. -/
theorem read_setMarks_user {len : Nat} (hn : n.toNat + 18 < 2 ^ 64)
    (hlen : len ≤ n.toNat) : (setMarks m p n marks).read p len = m.read p len := by
  refine Memory.SameBytes.read (fun a ha => setMarks_of_not_marked fun hmarked => ?_) (by omega)
  exact not_user_of_inBand hn (inBand_of_marked hmarked) (Nat.lt_of_lt_of_le ha hlen)

/-- What marks are written on does not matter. -/
theorem setMarks_of_marked (h : Marked p n a) (m m' : Memory) :
    setMarks m p n marks a = setMarks m' p n marks a := by
  unfold setMarks
  by_cases hfooter : InRange (p + n) 2 a
  · exact Memory.writeNumber_of_inRange hfooter _ _
  · rw [Memory.writeNumber_of_not_inRange hfooter, Memory.writeNumber_of_not_inRange hfooter]
    exact Memory.writeNumber_of_inRange (h.resolve_right hfooter) _ _

/-- The marks that are there already. -/
theorem setMarks_self (hcanary : (read m p).canary = marks.canary)
    (hfooter : readFooter m p n = marks.footer) : setMarks m p n marks = m := by
  have number {start : UInt64} {mark : UInt16} (h : UInt16.ofNat (m.number start 2) = mark) :
      m.number start 2 = mark.toNat := by
    rw [← h, UInt16.toNat_ofNat_of_lt' (Memory.number_lt ..)]
  have hcanary : m.number (p - 2) 2 = marks.canary.toNat := number hcanary
  have hfooter : m.number (p + n) 2 = marks.footer.toNat := number hfooter
  unfold setMarks
  rw [← hcanary, Memory.writeNumber_number (by decide), ← hfooter,
    Memory.writeNumber_number (by decide)]

/-- A block that passes its check has live marks already. -/
theorem setMarks_live (h : Ledger.inspectBlock m p b = .ok ()) : setMarks m p b.size live = m := by
  obtain ⟨hheader, hfooter⟩ := inspectBlock_eq_ok_iff.1 h
  exact setMarks_self (congrArg canary hheader) hfooter

/-- Marks that were turned dead in a good block, and are turned live again. -/
theorem setMarks_live_of_dead (h : Ledger.inspectBlock m p b = .ok ())
    (ha : m' a = setMarks m p b.size dead a) : setMarks m' p b.size live a = m a := by
  by_cases hmarked : Marked p b.size a
  · rw [setMarks_of_marked hmarked m' m, setMarks_live h]
  · rw [setMarks_of_not_marked hmarked, ha, setMarks_of_not_marked hmarked]

end BlockHeader

end HostServices
