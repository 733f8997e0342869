import HostServices.Diagnostics.Location
import HostServices.Proofs.Alignment
import HostServices.Proofs.Checked
import HostServices.Proofs.Probe
import HostServices.SparseMemory

/-!
# The bytes at a location

Memory that no finder knows is shown with the word at the address (`lead`) and a cell for each byte
up to the next word (`wordRest`). The next word is found by adding one and rounding up to a multiple
of eight. For an address in the last word the rounding wraps to zero, so that no byte is below the
next word (`bytesText_of_le`), and at the last address the sum is no word. So the cells are right if
and only if the address is not in the last word (`render_readable_iff`).
-/

namespace HostServices.Location

variable {probe : Probe} {finders : List LocationFinder} {addr : UInt64}

/-! ## The rest of a word -/

/-- The addresses from `addr` to the end of its word. -/
def wordRest (addr : UInt64) : List UInt64 :=
  (List.range (8 - addr.toNat % 8)).map fun i => addr + UInt64.ofNat i

theorem toNat_wordRest {i : ℕ} (hi : i < 8 - addr.toNat % 8) :
    (addr + UInt64.ofNat i).toNat = addr.toNat + i := by
  have hlt := addr.toNat_lt
  have hword : (UInt64.ofNat i).toNat = i := UInt64.toNat_ofNat_of_lt' (by show i < 2 ^ 64; omega)
  rw [Word.toNat_add_of_lt (by omega), hword]

theorem mem_wordRest (p : UInt64) :
    p ∈ wordRest addr ↔ addr ≤ p ∧ p.toNat < 8 * (addr.toNat / 8 + 1) := by
  rw [wordRest, List.mem_map, UInt64.le_iff_toNat_le]
  constructor
  · rintro ⟨i, hi, rfl⟩
    rw [List.mem_range] at hi
    have := toNat_wordRest hi
    omega
  · rintro ⟨hlow, hhigh⟩
    have hi : p.toNat - addr.toNat < 8 - addr.toNat % 8 := by omega
    refine ⟨p.toNat - addr.toNat, List.mem_range.2 hi, ?_⟩
    rw [← UInt64.toNat_inj, toNat_wordRest hi]
    omega

theorem pairwise_wordRest (addr : UInt64) : (wordRest addr).Pairwise (· < ·) := by
  rw [wordRest, List.pairwise_map]
  refine List.pairwise_lt_range.imp_of_mem fun {i j} hi hj hij => ?_
  rw [List.mem_range] at hi hj
  rw [UInt64.lt_iff_toNat_lt, toNat_wordRest hi, toNat_wordRest hj]
  omega

/-- Below the last word, the bytes up to the next word are the rest of this one. -/
theorem bytesText_of_lt (h : addr.toNat < 2 ^ 64 - 8) :
    bytesText probe addr (Word.alignUp (addr + 1) 8) =
      String.join ((wordRest addr).map (byteText probe)) := by
  have hnext : (addr + 1).toNat = addr.toNat + 1 := Word.toNat_add_of_lt (by show _ + 1 < _; omega)
  have hend : (Word.alignUp (addr + 1) 8).toNat = 8 * ((addr.toNat + 1 + 7) / 8) := by
    rw [Word.toNat_alignUp_of_le rfl (by rw [hnext]; show _ + 7 < _; omega), hnext]
    rfl
  have hcount : 8 * ((addr.toNat + 1 + 7) / 8) - addr.toNat = 8 - addr.toNat % 8 := by omega
  rw [bytesText, hend, hcount, wordRest, List.map_map]
  rfl

/-- In the last word, the next word is taken to be at address zero, and no byte is below it. -/
theorem bytesText_of_le (h : 2 ^ 64 - 8 ≤ addr.toNat) (htop : addr ≠ Word.top) :
    bytesText probe addr (Word.alignUp (addr + 1) 8) = "" := by
  have hlt := Word.toNat_lt_of_ne_top htop
  have hnext : (addr + 1).toNat = addr.toNat + 1 := Word.toNat_add_of_lt (by show _ + 1 < _; omega)
  have hwrapped : Word.alignUp (addr + 1) 8 = 0 :=
    Word.alignUp_of_lt rfl (by rw [hnext]; show _ ≤ _ + 7; omega)
  rw [bytesText, hwrapped]
  show String.join ((List.range (0 - addr.toNat)).map _) = ""
  rw [Nat.zero_sub]
  rfl

/-! ## The text of readable memory -/

/-- What is shown before the bytes: the address, and the word at it if the address is a multiple of
eight and the word can be read. -/
def lead (probe : Probe) (addr : UInt64) : String :=
  s!"{Hex.address addr} points into unknown readable memory:" ++
    if 8 ∣ addr.toNat then (probe addr .double).elim "" fun value => s!" {Hex.address value} |"
    else ""

/-- A line of text with a cell for each of some addresses. -/
def shown (probe : Probe) (addr : UInt64) (cells : List UInt64) : String :=
  lead probe addr ++ String.join (cells.map (byteText probe)) ++ "\n"

theorem lead_eq (probe : Probe) (addr : UInt64) :
    s!"{Hex.address addr} points into unknown readable memory:" ++ wordText probe addr =
      lead probe addr := by
  have hword : Word.isAligned addr 8 = true ↔ 8 ∣ addr.toNat := Word.isAligned_iff rfl
  rw [lead, wordText, Probe.readSafely_eq, if_congr hword rfl rfl]

theorem length_byteText_pos (probe : Probe) (p : UInt64) : 0 < (byteText probe p).length := by
  unfold byteText
  split
  · rw [String.length_append]
    exact Nat.lt_add_right _ (by decide)
  · decide

/-- No cell is empty, so a line without cells is no line with some. -/
theorem eq_nil_of_shown {cells : List UInt64} (h : shown probe addr cells = shown probe addr []) :
    cells = [] := by
  rw [shown, shown, String.append_left_inj, String.append_right_inj] at h
  cases cells with
  | nil => rfl
  | cons p cells =>
    have hlength := congrArg String.length h
    rw [List.map_cons, String.join_cons, String.length_append, List.map_nil, String.join_nil,
      String.length_empty] at hlength
    have hcell := length_byteText_pos probe p
    omega

/-! ## What is shown -/

section

variable (hnull : addr ≠ 0) (hfinders : ∀ f ∈ finders, f addr = none)
  (hreadable : probe.isReadable addr = true)
include hnull hfinders hreadable

theorem render_of_readable :
    render probe finders addr = do
      let next ← Checked.add addr 1
      return lead probe addr ++ bytesText probe addr (Word.alignUp next 8) ++ "\n" := by
  have hnone : finders.findSome? (· addr) = none := List.findSome?_eq_none_iff.2 hfinders
  rw [render, if_neg hnull, hnone, ← lead_eq]
  exact if_pos hreadable

theorem render_of_lt (hlt : addr.toNat < 2 ^ 64 - 8) :
    render probe finders addr = .ok (shown probe addr (wordRest addr)) := by
  rw [render_of_readable hnull hfinders hreadable, Checked.add_of_lt (by show _ + 1 < _; omega)]
  show Except.ok (lead probe addr ++ bytesText probe addr _ ++ "\n") = _
  rw [bytesText_of_lt hlt]
  rfl

theorem render_of_le (hle : 2 ^ 64 - 8 ≤ addr.toNat) :
    render probe finders addr =
      if addr = Word.top then .error .addOverflow else .ok (shown probe addr []) := by
  rw [render_of_readable hnull hfinders hreadable]
  split
  case isTrue htop =>
    subst htop
    rfl
  case isFalse htop =>
    have hlt := Word.toNat_lt_of_ne_top htop
    rw [Checked.add_of_lt (by show _ + 1 < _; omega)]
    show Except.ok (lead probe addr ++ bytesText probe addr _ ++ "\n") = _
    rw [bytesText_of_le hle htop]
    rfl

/-- Readable memory that no finder knows is shown with a cell for each byte from the address to the
end of its word if and only if that is not the last word. In the last word there are no cells, and at
the last address the sum with one stops the operation. -/
theorem render_readable_iff :
    ∃ cells : List UInt64, cells.Pairwise (· < ·) ∧
      (∀ p, p ∈ cells ↔ addr ≤ p ∧ p.toNat < 8 * (addr.toNat / 8 + 1)) ∧
      (render probe finders addr = .ok (shown probe addr cells) ↔ addr.toNat < 2 ^ 64 - 8) ∧
      (2 ^ 64 - 8 ≤ addr.toNat → render probe finders addr =
        if addr = Word.top then .error .addOverflow else .ok (shown probe addr [])) := by
  have hlast (hle : 2 ^ 64 - 8 ≤ addr.toNat) := render_of_le hnull hfinders hreadable hle
  refine ⟨wordRest addr, pairwise_wordRest addr, mem_wordRest, ⟨fun hshown => ?_, ?_⟩, hlast⟩
  · by_contra hle
    rw [hlast (Nat.not_lt.1 hle)] at hshown
    split at hshown
    · cases hshown
    · have hmem : addr ∈ wordRest addr := (mem_wordRest addr).2 ⟨UInt64.le_refl addr, by omega⟩
      rw [eq_nil_of_shown (Except.ok.inj hshown).symm] at hmem
      cases hmem
  · exact render_of_lt hnull hfinders hreadable

end

/-- Memory whose only bytes are those of one word, counted from 1. -/
def oneWord (start : UInt64) : SparseMemory :=
  ⟨fun a => if start ≤ a ∧ a - start < 8 then some ((a - start).toUInt8 + 1) else none⟩

/-- From the sixth byte of a word, the last three are shown. -/
theorem render_readable_iff_sixthByte :
    (0x1005 : UInt64) ≠ 0 ∧ (∀ f ∈ [fun _ => none], (f : LocationFinder) 0x1005 = none) ∧
      (oneWord 0x1000).probe.isReadable 0x1005 = true ∧
      ∃ cells : List UInt64, (∀ p, p ∈ cells ↔ 0x1005 ≤ p ∧ p.toNat < 0x1008) ∧
        render (oneWord 0x1000).probe [fun _ => none] 0x1005 =
          .ok (shown (oneWord 0x1000).probe 0x1005 cells) := by
  have hnull : (0x1005 : UInt64) ≠ 0 := by decide
  have hfinders : ∀ f ∈ [fun _ => none], (f : LocationFinder) 0x1005 = none := by simp
  have hreadable : (oneWord 0x1000).probe.isReadable 0x1005 = true := by decide +kernel
  obtain ⟨cells, -, hmem, hrender, -⟩ := render_readable_iff hnull hfinders hreadable
  exact ⟨hnull, hfinders, hreadable, cells, hmem, hrender.2 (by decide)⟩

/-- The bytes of the last word are not shown: not from its start, not from the middle, and a look at
the last byte stops the operation. -/
theorem lastWord_without_bytes :
    ((oneWord 0xfffffffffffffff8).probe.isReadable 0xfffffffffffffff8 = true ∧
      render (oneWord 0xfffffffffffffff8).probe [] 0xfffffffffffffff8 =
        .ok "0xfffffffffffffff8 points into unknown readable memory: 0x0807060504030201 |\n") ∧
    ((oneWord 0xfffffffffffffff8).probe.isReadable 0xfffffffffffffffd = true ∧
      render (oneWord 0xfffffffffffffff8).probe [] 0xfffffffffffffffd =
        .ok "0xfffffffffffffffd points into unknown readable memory:\n") ∧
    (oneWord 0xfffffffffffffff8).probe.isReadable 0xffffffffffffffff = true ∧
      render (oneWord 0xfffffffffffffff8).probe [] 0xffffffffffffffff = .error .addOverflow := by
  decide +kernel

end HostServices.Location
