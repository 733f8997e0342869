import HostServices.Proofs.BlockHeader

/-!
# Writing and reading headers

A header is written at the start of a host block, read from the user's bytes backwards, and marked
again in parts. The marks that were written last are read (`read_setMarks`, `readFooter_setMarks`)
and nothing of earlier ones is left (`setMarks_setMarks`). `codec_exact` puts the three together, with
every place counted from the start of the host block.
-/

namespace HostServices

open Memory (InRange SameBytes)

namespace BlockHeader

variable {m : Memory} {p n : UInt64} {marks : Marks}

theorem readFooter_setMarks : readFooter (setMarks m p n marks) p n = marks.footer := by
  rw [readFooter, setMarks, Memory.number_writeNumber (by decide) marks.footer.toNat_lt]
  exact UInt16.ofNat_toNat

/-- A canary is written behind the other fields. -/
theorem read_writeNumber_canary (m : Memory) (p : UInt64) (canary : UInt16) :
    read (m.writeNumber (p - 2) 2 canary.toNat) p = { read m p with canary } := by
  have hbefore : SameBytes m (m.writeNumber (p - 2) 2 canary.toNat) (outerOf p) 14 := by
    intro a ha
    refine Memory.writeNumber_of_not_inRange fun hin => ?_
    have hplace : a - (p - 2) = a - outerOf p - 14 := by unfold outerOf headerSize; grind
    rw [InRange, hplace, UInt64.toNat_sub, show (14 : UInt64).toNat = 14 from rfl] at hin
    unfold InRange at ha
    omega
  have number (k w : Nat) (hk : k + w ≤ 14) :
      (m.writeNumber (p - 2) 2 canary.toNat).number (outerOf p + UInt64.ofNat k) w =
        m.number (outerOf p + UInt64.ofNat k) w :=
    (hbefore.part hk (by decide)).number (by omega)
  have hcanary : (m.writeNumber (p - 2) 2 canary.toNat).number (outerOf p + UInt64.ofNat 14) 2 =
      canary.toNat := by
    rw [canary_place, Memory.number_writeNumber (by decide) canary.toNat_lt]
  rw [read_eq, read_eq, number 0 8 (by decide), number 8 4 (by decide), hcanary,
    hbefore.apply (by decide) (by decide), UInt16.ofNat_toNat]

/-- Marks change the canary of a header and none of its other fields. -/
theorem read_setMarks (hn : n.toNat + 18 < 2 ^ 64) :
    read (setMarks m p n marks) p = { read m p with canary := marks.canary } := by
  rw [← read_writeNumber_canary, setMarks]
  refine read_congr fun a ha => Memory.writeNumber_of_not_inRange fun hfooter => ?_
  have hfooter := (inRange_footer_iff hn).1 hfooter
  unfold InRange at ha
  omega

/-- The last marks stay. -/
theorem setMarks_setMarks (m : Memory) (p n : UInt64) (marks marks' : Marks) :
    setMarks (setMarks m p n marks) p n marks' = setMarks m p n marks' := by
  funext a
  by_cases hmarked : Marked p n a
  · exact setMarks_of_marked hmarked _ _
  · rw [setMarks_of_not_marked hmarked, setMarks_of_not_marked hmarked,
      setMarks_of_not_marked hmarked]

/-- A fresh header and its footer are read back, and so are marks that are put there later; marks
leave the other fields as they are. A header is written on its sixteen bytes and on the two behind the
user's, and marks on the last two of the sixteen and on those behind the user's. Live marks after dead
ones leave a fresh block as it was, byte for byte. A block may go round at the top of memory. -/
theorem codec_exact (m : Memory) (outer size : UInt64) (marker : UInt32) (category : UInt8)
    (hblock : 16 + size.toNat + 2 < 2 ^ 64) :
    let h : BlockHeader := ⟨size, marker, category, live.canary⟩
    let fresh := h.install m outer
    let inner := outer + 16
    (read fresh inner = h ∧ readFooter fresh inner size = live.footer) ∧
    (∀ marks, read (setMarks fresh inner size marks) inner = { h with canary := marks.canary } ∧
      readFooter (setMarks fresh inner size marks) inner size = marks.footer) ∧
    (∀ a, ¬ InRange outer 16 a → ¬ InRange (outer + 16 + size) 2 a → fresh a = m a) ∧
    (∀ m' marks a, ¬ InRange (outer + 14) 2 a → ¬ InRange (outer + 16 + size) 2 a →
      setMarks m' inner size marks a = m' a) ∧
    setMarks (setMarks fresh inner size dead) inner size live = fresh := by
  intro h fresh inner
  have hn : size.toNat + 18 < 2 ^ 64 := by omega
  have houter : outerOf inner = outer := outerOf_innerOf outer
  have hcanary : inner - 2 = outer + 14 := by rw [canary_place, houter]; rfl
  have hfresh : fresh = h.install m (outerOf inner) := by rw [houter]
  have hread : read fresh inner = h := hfresh ▸ read_install hn
  have hfooter : readFooter fresh inner size = live.footer := hfresh ▸ readFooter_install
  refine ⟨⟨hread, hfooter⟩, fun marks => ⟨?_, readFooter_setMarks⟩, fun a hheader hbehind => ?_,
    fun m' marks a hmark hbehind => ?_, ?_⟩
  · rw [read_setMarks hn, hread]
  · rw [hfresh]
    exact install_of_not_inBand fun hband => hband.elim (fun hin => hheader (houter ▸ hin)) hbehind
  · exact setMarks_of_not_marked fun hmarked =>
      hmarked.elim (fun hin => hmark (hcanary ▸ hin)) hbehind
  · rw [setMarks_setMarks]
    exact setMarks_self (congrArg canary hread) hfooter

/-- Seven bytes, so that the footer is at an odd address. -/
theorem codec_exact_sevenBytes :
    let h : BlockHeader := ⟨7, 3, 5, 0xe99e⟩
    let fresh := h.install Memory.zero 0x200000000000
    16 + (7 : UInt64).toNat + 2 < 2 ^ 64 ∧ read fresh 0x200000000010 = h ∧
      readFooter fresh 0x200000000010 7 = 0xe88e ∧
      read (setMarks fresh 0x200000000010 7 dead) 0x200000000010 = ⟨7, 3, 5, 0xd99d⟩ ∧
      readFooter (setMarks fresh 0x200000000010 7 dead) 0x200000000010 7 = 0xd88d ∧
      setMarks (setMarks fresh 0x200000000010 7 dead) 0x200000000010 7 live = fresh := by
  have hblock : 16 + (7 : UInt64).toNat + 2 < 2 ^ 64 := by decide
  obtain ⟨⟨hread, hfooter⟩, hmarks, -, -, hrestored⟩ :=
    codec_exact Memory.zero 0x200000000000 7 3 5 hblock
  exact ⟨hblock, hread, hfooter, (hmarks dead).1, (hmarks dead).2, hrestored⟩

end BlockHeader

end HostServices
