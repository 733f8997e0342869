import HostServices.Diagnostics.Frame
import HostServices.Proofs.Alignment
import HostServices.Proofs.Checked
import HostServices.Proofs.Text.Hex
import Mathlib.Algebra.Order.Floor.Div
import Mathlib.Data.List.Intervals

/-!
# What a hex dump shows

The cells of a range are counted from the start rounded down, and fill lines of equal length but for
the last. The walk over the range writes a cell and the break behind it (`cells_place`); cells with the
breaks in front of them make up the lines (`join_pieces`).
-/

namespace HostServices

namespace Text

/-- All texts but the first stand behind a separator. -/
theorem intercalate_cons_eq_join (sep text : String) (texts : List String) :
    sep.intercalate (text :: texts) = text ++ String.join (texts.map (sep ++ ·)) := by
  induction texts generalizing text with
  | nil => rw [String.intercalate_singleton, List.map_nil, String.join_nil, String.append_empty]
  | cons next texts ih =>
    rw [String.intercalate_cons_cons, ih, List.map_cons, String.join_cons]
    simp only [String.append_assoc]

/-- What is in none of the texts and not in the separator is not in what they are joined to. -/
theorem notMem_intercalate {c : Char} {sep : String} (hsep : c ∉ sep.toList) :
    ∀ {texts : List String}, (∀ text ∈ texts, c ∉ text.toList) → c ∉ (sep.intercalate texts).toList
  | [], _ => by rw [String.intercalate_nil]; exact List.not_mem_nil
  | text :: texts, h => by
    rw [List.forall_mem_cons] at h
    rw [intercalate_cons_eq_join, String.toList_append, String.toList_join, List.mem_append, not_or]
    refine ⟨h.1, fun hmem => ?_⟩
    obtain ⟨cs, hcs, hmem⟩ := List.mem_flatten.1 hmem
    rw [List.map_map] at hcs
    obtain ⟨next, hnext, rfl⟩ := List.mem_map.1 hcs
    rw [Function.comp_apply, String.toList_append, List.mem_append] at hmem
    exact hmem.elim hsep (h.2 next hnext)

theorem append_intercalate (sep : String) {texts : List String} (h : texts ≠ []) :
    sep ++ sep.intercalate texts = String.join (texts.map (sep ++ ·)) := by
  obtain ⟨text, texts, rfl⟩ := List.exists_cons_of_ne_nil h
  rw [intercalate_cons_eq_join, List.map_cons, String.join_cons, String.append_assoc]

end Text

namespace FetchWidth

theorem toNat_size (w : FetchWidth) : w.size.toNat = w.bytes := by
  cases w <;> rfl

theorem isPowerOfTwo_size (w : FetchWidth) : Word.isPowerOfTwo w.size = true := by
  cases w <;> decide

theorem bytes_pos (w : FetchWidth) : 0 < w.bytes := by
  cases w <;> decide

theorem bytes_dvd_eight (w : FetchWidth) : w.bytes ∣ 8 := by
  cases w <;> decide

/-- The mask leaves as many digits as a cell shows. -/
theorem toNat_and_mask (w : FetchWidth) (value : UInt64) :
    (value &&& w.mask).toNat = value.toNat % 16 ^ (2 * w.bytes) := by
  have hmask : w.mask.toNat = 2 ^ (8 * w.bytes) - 1 := by cases w <;> rfl
  rw [UInt64.toNat_and, hmask, Nat.and_two_pow_sub_one_eq_mod, show 16 = 2 ^ 4 from rfl, ← Nat.pow_mul,
    ← Nat.mul_assoc]

end FetchWidth

namespace HexDump

variable (d : HexDump) (probe : Probe)

/-! ## Cells and lines -/

/-- The address of the first cell. -/
def first : ℕ :=
  d.unit.bytes * (d.start.toNat / d.unit.bytes)

/-- The number of cells. -/
def count : ℕ :=
  (d.stop.toNat - d.first) ⌈/⌉ d.unit.bytes

/-- The number of cells in a full line. -/
def perLine : ℕ :=
  8 * (max d.bytesPerLine.toNat 1 ⌈/⌉ 8) / d.unit.bytes

/-- The address of a cell. -/
def place (i : ℕ) : UInt64 :=
  UInt64.ofNat (d.first + i * d.unit.bytes)

/-- The value of a cell in two digits for each byte, or two question marks for each. -/
def cellText (i : ℕ) : String :=
  match probe (d.place i) d.unit with
  | some value => String.ofList (Hex.digits (2 * d.unit.bytes) value.toNat)
  | none => String.join (List.replicate d.unit.bytes "??")

/-- The address shown in front of a line. -/
def addressText (j : ℕ) : String :=
  "0x" ++ String.ofList (Hex.digits 16
    ((d.unit.bytes * (d.logical.toNat / d.unit.bytes) + j * d.perLine * d.unit.bytes) % 2 ^ 64))

/-- The number of lines. -/
def lineCount : ℕ :=
  max 1 (d.count ⌈/⌉ d.perLine)

/-- A line: its address and its cells. -/
def line (j : ℕ) : String :=
  d.addressText j ++ ":   " ++ " ".intercalate
    ((List.Ico (j * d.perLine) (min d.count ((j + 1) * d.perLine))).map (d.cellText probe))

/-! ## Numbers of cells -/

section

variable {d}

theorem lt_ceilDiv_iff {a b c : ℕ} (ha : 0 < a) : c < b ⌈/⌉ a ↔ a * c < b := by
  rw [← not_le, ceilDiv_le_iff_le_mul ha, not_le]

theorem lt_count_iff {i : ℕ} : i < d.count ↔ d.first + i * d.unit.bytes < d.stop.toNat := by
  rw [count, lt_ceilDiv_iff d.unit.bytes_pos, Nat.lt_sub_iff_add_lt', Nat.mul_comm i]

/-- The address of a cell does not wrap around. -/
theorem toNat_place {i : ℕ} (hi : i < d.count) :
    (d.place i).toNat = d.first + i * d.unit.bytes :=
  UInt64.toNat_ofNat_of_lt' (Nat.lt_trans (lt_count_iff.1 hi) d.stop.toNat_lt)

theorem place_lt_stop {i : ℕ} (hi : i < d.count) : d.place i < d.stop := by
  rw [UInt64.lt_iff_toNat_lt, toNat_place hi]
  exact lt_count_iff.1 hi

theorem place_succ (i : ℕ) : d.place i + d.unit.size = d.place (i + 1) := by
  rw [place, place, Nat.add_one_mul, ← Nat.add_assoc, UInt64.ofNat_add _ d.unit.bytes,
    FetchWidth.size]

theorem perLine_pos : 0 < d.perLine := by
  have hblock : 0 < max d.bytesPerLine.toNat 1 ⌈/⌉ 8 := (lt_ceilDiv_iff (by decide)).2 (by omega)
  refine Nat.div_pos ?_ d.unit.bytes_pos
  exact Nat.le_trans (Nat.le_of_dvd (by decide) d.unit.bytes_dvd_eight) (Nat.le_mul_of_pos_right 8 hblock)

theorem toNat_columns (h : d.bytesPerLine.toNat + 7 < 2 ^ 64) : d.columns.toNat = d.perLine := by
  have height : Word.isPowerOfTwo 8 = true := by decide
  have hmax : (Word.max d.bytesPerLine 1).toNat = max d.bytesPerLine.toNat 1 := Word.toNat_max ..
  have hfits : (Word.max d.bytesPerLine 1).toNat + ((8 : UInt64).toNat - 1) < 2 ^ 64 := by
    rw [hmax]
    change max d.bytesPerLine.toNat 1 + 7 < 2 ^ 64
    omega
  rw [columns, UInt64.toNat_div, Word.toNat_alignUp_of_le height hfits, hmax, d.unit.toNat_size,
    perLine, Nat.ceilDiv_eq_add_pred_div]
  rfl

end

/-! ## Text -/

theorem toNat_logical : (Word.alignDown d.logical d.unit.size).toNat =
    d.unit.bytes * (d.logical.toNat / d.unit.bytes) := by
  rw [Word.toNat_alignDown d.unit.isPowerOfTwo_size, d.unit.toNat_size]

theorem place_zero : Word.alignDown d.start d.unit.size = d.place 0 := by
  rw [place, Nat.zero_mul, Nat.add_zero, first, ← d.unit.toNat_size,
    ← Word.toNat_alignDown d.unit.isPowerOfTwo_size, UInt64.ofNat_toNat]

theorem cell_place (i : ℕ) : cell probe d.unit (d.place i) = d.cellText probe i := by
  rw [cell, cellText]
  cases probe (d.place i) d.unit with
  | none => cases d.unit <;> rfl
  | some value =>
    have hpos : 0 < 2 * d.unit.bytes := Nat.mul_pos (by decide) d.unit.bytes_pos
    dsimp only
    rw [d.unit.toNat_and_mask, Hex.padded_eq_digits hpos (Nat.mod_lt _ (Nat.pow_pos (by decide))),
      Hex.digits_mod]

theorem length_cellText (i : ℕ) : (d.cellText probe i).length = 2 * d.unit.bytes := by
  rw [cellText]
  cases probe (d.place i) d.unit with
  | none => cases d.unit <;> rfl
  | some value => rw [String.length_ofList, Hex.length_digits]

theorem newline_notMem_cellText (i : ℕ) : '\n' ∉ (d.cellText probe i).toList := by
  rw [cellText]
  cases probe (d.place i) d.unit with
  | none => cases d.unit <;> decide
  | some value =>
    rw [String.toList_ofList]
    exact Hex.newline_notMem_digits _ _

theorem toList_addressText (j : ℕ) : (d.addressText j).toList = '0' :: 'x' :: Hex.digits 16
    ((d.unit.bytes * (d.logical.toNat / d.unit.bytes) + j * d.perLine * d.unit.bytes) % 2 ^ 64) := by
  simp [addressText]

theorem length_addressText (j : ℕ) : (d.addressText j).length = 18 := by
  rw [← String.length_toList, toList_addressText, List.length_cons, List.length_cons,
    Hex.length_digits]

theorem newline_notMem_addressText (j : ℕ) : '\n' ∉ (d.addressText j).toList := by
  rw [toList_addressText, List.mem_cons, List.mem_cons, not_or, not_or]
  exact ⟨by decide, by decide, Hex.newline_notMem_digits _ _⟩

/-- The address behind some full lines. -/
theorem lead_line (j : ℕ) :
    lead (Word.alignDown d.logical d.unit.size + UInt64.ofNat (j * d.perLine * d.unit.bytes)) =
      d.addressText j ++ ":   " := by
  rw [lead, Hex.address, Hex.ofNat, Hex.padded_eq_digits (by decide) (UInt64.toNat_lt _),
    UInt64.toNat_add, UInt64.toNat_ofNat', toNat_logical, Nat.add_mod_mod, addressText]
  rfl

/-! ## The walk -/

/-- The logical address of a cell. -/
def logicalPlace (i : ℕ) : UInt64 :=
  Word.alignDown d.logical d.unit.size + UInt64.ofNat (i * d.unit.bytes)

theorem logicalPlace_succ (i : ℕ) : d.logicalPlace i + d.unit.size = d.logicalPlace (i + 1) := by
  rw [logicalPlace, logicalPlace, Nat.add_one_mul, UInt64.ofNat_add, ← UInt64.add_assoc,
    FetchWidth.size]

/-- The number of cells in front of a cell in its line. -/
def column (i : ℕ) : UInt64 :=
  UInt64.ofNat (i % d.perLine)

/-- What stands in front of a cell: its line is new, or it is behind another cell. -/
def gap (i : ℕ) : String :=
  if d.perLine ∣ i then "\n" ++ lead (d.logicalPlace i) else " "

/-- A cell and what stands in front of it. -/
def piece (i : ℕ) : String :=
  d.gap i ++ d.cellText probe i

section

variable {d} {i : ℕ} (h : d.bytesPerLine.toNat + 7 < 2 ^ 64)
include h

/-- A line is too short for the count of its cells to be no word. -/
theorem perLine_lt : d.perLine < 2 ^ 64 :=
  toNat_columns h ▸ d.columns.toNat_lt

/-- The count of cells in a line does not overflow. -/
theorem column_add_one (i : ℕ) :
    Checked.add (d.column i) 1 = .ok (d.column i + 1) ∧
      (d.column i + 1).toNat = i % d.perLine + 1 := by
  have hmod : i % d.perLine < d.perLine := Nat.mod_lt i perLine_pos
  have hcolumn : (d.column i).toNat = i % d.perLine :=
    UInt64.toNat_ofNat_of_lt' (Nat.lt_trans hmod (perLine_lt h))
  have hfits : (d.column i).toNat + (1 : UInt64).toNat < 2 ^ 64 :=
    hcolumn.symm ▸ Nat.lt_of_le_of_lt hmod (perLine_lt h)
  refine ⟨Checked.add_of_lt hfits, ?_⟩
  rw [Word.toNat_add_of_lt hfits, hcolumn]
  rfl

/-- In a line that is not full the next cell stands behind this one. -/
theorem column_succ_of_lt (hmore : d.column i + 1 < d.columns) :
    ¬ d.perLine ∣ i + 1 ∧ d.column (i + 1) = d.column i + 1 := by
  obtain ⟨-, hcolumn⟩ := column_add_one h i
  rw [UInt64.lt_iff_toNat_lt, hcolumn, toNat_columns h] at hmore
  have hmod : (i + 1) % d.perLine = i % d.perLine + 1 := by
    rw [← Nat.mod_add_mod, Nat.mod_eq_of_lt hmore]
  refine ⟨fun hdvd => absurd (hmod ▸ Nat.mod_eq_zero_of_dvd hdvd) (Nat.succ_ne_zero _), ?_⟩
  rw [column, hmod, ← hcolumn, UInt64.ofNat_toNat]

/-- Behind a full line the next cell is in a new one. -/
theorem column_succ_of_full (hfull : ¬ d.column i + 1 < d.columns) :
    d.perLine ∣ i + 1 ∧ d.column (i + 1) = 0 := by
  obtain ⟨-, hcolumn⟩ := column_add_one h i
  rw [UInt64.lt_iff_toNat_lt, hcolumn, toNat_columns h] at hfull
  have hlast : i % d.perLine + 1 = d.perLine :=
    Nat.le_antisymm (Nat.mod_lt i perLine_pos) (Nat.not_lt.1 hfull)
  have hmod : (i + 1) % d.perLine = 0 := by
    rw [← Nat.mod_add_mod, hlast, Nat.mod_self]
  exact ⟨Nat.dvd_of_mod_eq_zero hmod, congrArg UInt64.ofNat hmod⟩

/-- Behind the last cell of all, the walk writes a blank and stops. -/
theorem cells_last (hlast : i + 1 = d.count) (written : String) :
    d.cells probe written (d.place i) (d.logicalPlace i) (d.column i) =
      .ok (written ++ d.cellText probe i ++ " ") := by
  have hi : i < d.count := hlast ▸ Nat.lt_succ_self i
  have hstop : ¬ (d.place i).toNat + d.unit.size.toNat < d.stop.toNat := by
    rw [toNat_place hi, d.unit.toNat_size, Nat.add_assoc, ← Nat.add_one_mul, ← lt_count_iff, hlast]
    exact Nat.lt_irrefl _
  rw [cells, if_pos (place_lt_stop hi), (column_add_one h i).1, cell_place]
  exact if_neg hstop

/-- Behind another cell, the walk goes on with the next one, in a new line if this one is full. -/
theorem cells_next (hnext : i + 1 < d.count) (written : String) :
    d.cells probe written (d.place i) (d.logicalPlace i) (d.column i) =
      d.cells probe (written ++ d.cellText probe i ++ d.gap (i + 1)) (d.place (i + 1))
        (d.logicalPlace (i + 1)) (d.column (i + 1)) := by
  have hi : i < d.count := Nat.lt_of_succ_lt hnext
  have hgo : (d.place i).toNat + d.unit.size.toNat < d.stop.toNat := by
    rw [toNat_place hi, d.unit.toNat_size, Nat.add_assoc, ← Nat.add_one_mul]
    exact lt_count_iff.1 hnext
  obtain ⟨hadd, -⟩ := column_add_one h i
  rw [cells, if_pos (place_lt_stop hi), hadd, cell_place]
  refine (if_pos hgo).trans ?_
  rw [place_succ, logicalPlace_succ]
  by_cases hmore : d.column i + 1 < d.columns
  · obtain ⟨hsame, hcount⟩ := column_succ_of_lt h hmore
    rw [if_pos hmore, hcount, gap, if_neg hsame]
  · obtain ⟨hnew, hcount⟩ := column_succ_of_full h hmore
    rw [if_neg hmore, hcount, gap, if_pos hnew, ← String.append_assoc]

/-- From a cell on, the walk writes that cell and then all others with what stands in front of them. -/
theorem cells_place (hi : i < d.count) (written : String) :
    d.cells probe written (d.place i) (d.logicalPlace i) (d.column i) =
      .ok (written ++ d.cellText probe i ++
        String.join ((List.Ico (i + 1) d.count).map (d.piece probe)) ++ " ") := by
  -- on the number of cells behind this one
  obtain ⟨rest, hrest⟩ := Nat.exists_eq_add_of_le (Nat.succ_le_of_lt hi)
  induction rest generalizing i written with
  | zero =>
    rw [cells_last probe h hrest.symm, hrest, Nat.add_zero, List.Ico.self_empty, List.map_nil,
      String.join_nil, String.append_empty]
  | succ rest ih =>
    have hnext : i + 1 < d.count := by omega
    rw [cells_next probe h hnext, ih hnext _ (by omega), List.Ico.eq_cons hnext, List.map_cons,
      String.join_cons, piece]
    simp only [String.append_assoc]

end

/-! ## The lines -/

theorem gap_of_first (j : ℕ) :
    d.gap (j * d.perLine) = "\n" ++ (d.addressText j ++ ":   ") := by
  rw [gap, if_pos (Nat.dvd_mul_left ..), logicalPlace, lead_line]

theorem gap_of_inner {i j : ℕ} (hlow : j * d.perLine < i) (hhigh : i < (j + 1) * d.perLine) :
    d.gap i = " " := by
  rw [Nat.mul_comm] at hlow hhigh
  exact if_neg (Nat.not_dvd_of_lt_of_lt_mul_succ hlow hhigh)

/-- There is no break within a line. -/
theorem newline_notMem_line (j : ℕ) : '\n' ∉ (d.line probe j).toList := by
  rw [line, String.toList_append, String.toList_append, List.mem_append, List.mem_append, not_or,
    not_or]
  refine ⟨⟨d.newline_notMem_addressText j, by decide⟩, Text.notMem_intercalate (by decide) ?_⟩
  intro text htext
  obtain ⟨i, -, rfl⟩ := List.mem_map.1 htext
  exact d.newline_notMem_cellText probe i

/-- Behind the first cell of a line, every cell stands behind a blank. -/
theorem map_piece_behind_first (j : ℕ) :
    (List.Ico (j * d.perLine + 1) (min d.count ((j + 1) * d.perLine))).map (d.piece probe) =
      ((List.Ico (j * d.perLine + 1) (min d.count ((j + 1) * d.perLine))).map
        (d.cellText probe)).map (" " ++ ·) := by
  rw [List.map_map]
  refine List.map_congr_left fun i hi => ?_
  obtain ⟨hlow, hhigh⟩ := List.Ico.mem.1 hi
  rw [piece, d.gap_of_inner hlow (lt_min_iff.1 hhigh).2, Function.comp_apply]

/-- The cells of a line, each with what stands in front of it. -/
theorem join_line_pieces {j : ℕ} (hj : j * d.perLine < d.count) :
    String.join ((List.Ico (j * d.perLine) (min d.count ((j + 1) * d.perLine))).map (d.piece probe)) =
      "\n" ++ d.line probe j := by
  have hlt : j * d.perLine < min d.count ((j + 1) * d.perLine) :=
    lt_min hj (Nat.mul_lt_mul_of_pos_right (Nat.lt_succ_self j) perLine_pos)
  rw [line, List.Ico.eq_cons hlt, List.map_cons, List.map_cons, String.join_cons, piece, gap_of_first,
    map_piece_behind_first, Text.intercalate_cons_eq_join]
  simp only [String.append_assoc]

/-- The cells of the first lines, each with what stands in front of it. -/
theorem join_pieces {lines : ℕ} (hlines : lines ≤ d.count ⌈/⌉ d.perLine) :
    String.join ((List.Ico 0 (min d.count (lines * d.perLine))).map (d.piece probe)) =
      String.join (((List.range lines).map (d.line probe)).map ("\n" ++ ·)) := by
  induction lines with
  | zero => rw [Nat.zero_mul, Nat.min_zero, List.Ico.self_empty]; rfl
  | succ lines ih =>
    have hlt : lines * d.perLine < d.count := by
      rw [Nat.mul_comm]
      exact (lt_ceilDiv_iff perLine_pos).1 hlines
    have hle : lines * d.perLine ≤ min d.count ((lines + 1) * d.perLine) :=
      le_min hlt.le (Nat.mul_le_mul_right _ (Nat.le_succ lines))
    rw [List.range_succ, List.map_append, List.map_append, String.join_append,
      ← ih (Nat.le_of_succ_le hlines), min_eq_right hlt.le,
      ← List.Ico.append_consecutive (Nat.zero_le _) hle, List.map_append, String.join_append,
      join_line_pieces _ _ hlt]
    rfl

/-! ## The dump -/

/-- The walk begins with the first cell, behind the address of the first line. -/
theorem render_of_cells {text : String}
    (h : d.cells probe (d.addressText 0 ++ ":   ") (d.place 0) (d.logicalPlace 0) 0 = .ok text) :
    d.render probe = .ok (text ++ "\n") := by
  have hlogical : d.logicalPlace 0 = Word.alignDown d.logical d.unit.size := by
    rw [logicalPlace, Nat.zero_mul]
    exact UInt64.add_zero _
  rw [← lead_line, Nat.zero_mul, ← logicalPlace, hlogical, ← place_zero] at h
  rw [render, h]
  rfl

/-- Where there is no cell, a line shows its address only. -/
theorem render_of_empty (hempty : d.count = 0) :
    d.render probe = .ok (d.line probe 0 ++ "\n") := by
  have hstop : ¬ d.place 0 < d.stop := by
    rw [UInt64.lt_iff_toNat_lt, ← place_zero, Word.toNat_alignDown d.unit.isPowerOfTwo_size,
      d.unit.toNat_size]
    intro hlt
    have hfirst : 0 < d.count := lt_count_iff.2 (by rwa [Nat.zero_mul, Nat.add_zero, first])
    exact Nat.ne_of_gt hfirst hempty
  apply render_of_cells
  rw [cells, if_neg hstop, line, hempty, Nat.zero_min, Nat.zero_mul, List.Ico.self_empty,
    List.map_nil, String.intercalate_nil, String.append_empty]
  rfl

theorem lineCount_of_pos (hpos : 0 < d.count) : d.lineCount = d.count ⌈/⌉ d.perLine :=
  max_eq_right ((lt_ceilDiv_iff perLine_pos).2 hpos)

/-- Where there are cells, a blank stands behind the last one. -/
theorem render_of_pos (h : d.bytesPerLine.toNat + 7 < 2 ^ 64) (hpos : 0 < d.count) :
    d.render probe =
      .ok ("\n".intercalate ((List.range d.lineCount).map (d.line probe)) ++ " " ++ "\n") := by
  have hall : d.count ≤ d.lineCount * d.perLine := by
    rw [d.lineCount_of_pos hpos, Nat.mul_comm]
    exact le_smul_ceilDiv perLine_pos
  have htext : d.addressText 0 ++ ":   " ++ d.cellText probe 0 ++
      String.join ((List.Ico 1 d.count).map (d.piece probe)) =
        "\n".intercalate ((List.range d.lineCount).map (d.line probe)) := by
    have hlines : (List.range d.lineCount).map (d.line probe) ≠ [] := by
      rw [ne_eq, List.map_eq_nil_iff, List.range_eq_nil]
      exact Nat.ne_of_gt (Nat.lt_of_lt_of_le Nat.zero_lt_one (le_max_left ..))
    have hgap : d.gap 0 = "\n" ++ (d.addressText 0 ++ ":   ") := by
      rw [← gap_of_first, Nat.zero_mul]
    have hjoin := d.join_pieces probe (d.lineCount_of_pos hpos).le
    rw [min_eq_left hall, List.Ico.eq_cons hpos, List.map_cons, String.join_cons, piece, hgap,
      ← Text.append_intercalate "\n" hlines] at hjoin
    rw [← String.append_right_inj "\n", ← hjoin]
    simp only [String.append_assoc]
  have hwalk := cells_place probe h hpos (d.addressText 0 ++ ":   ")
  rw [column, Nat.zero_mod, Nat.zero_add, htext] at hwalk
  exact d.render_of_cells probe hwalk

/-- A dump has a line for every full line of cells and one for those that are left, if there are any. -/
theorem render_eq (h : d.bytesPerLine.toNat + 7 < 2 ^ 64) :
    d.render probe = .ok ("\n".intercalate ((List.range d.lineCount).map (d.line probe)) ++
      (if d.count = 0 then "" else " ") ++ "\n") := by
  rcases Nat.eq_zero_or_pos d.count with hempty | hpos
  · have hone : d.lineCount = 1 := by rw [lineCount, hempty, zero_ceilDiv]; rfl
    rw [d.render_of_empty probe hempty, hone, if_pos hempty, String.append_empty]
    rfl
  · rw [d.render_of_pos probe h hpos, if_neg (Nat.ne_of_gt hpos)]

/-- A dump never overflows and shows all cells in lines, which stand under the addresses from the
logical one on, modulo the word size. No line has a break in it, and a cell shows what is read at its
place in two digits for each byte. -/
theorem render_exact (h : d.bytesPerLine.toNat + 7 < 2 ^ 64) :
    d.render probe = .ok ("\n".intercalate ((List.range d.lineCount).map (d.line probe)) ++
      (if d.count = 0 then "" else " ") ++ "\n") ∧
    (∀ j, (d.addressText j).length = 18 ∧ '\n' ∉ (d.line probe j).toList) ∧
    ∀ i < d.count, (d.place i).toNat = d.first + i * d.unit.bytes ∧ d.place i < d.stop ∧
      (d.cellText probe i).length = 2 * d.unit.bytes :=
  ⟨d.render_eq probe h, fun j => ⟨d.length_addressText j, d.newline_notMem_line probe j⟩, fun i hi =>
    ⟨toNat_place hi, place_lt_stop hi, d.length_cellText probe i⟩⟩

/-- The cells up to the top of the address space, under addresses that wrap around. -/
def topCells : HexDump :=
  ⟨0xfffffffffffffff3, 0xffffffffffffffff, .half, 3, 0xfffffffffffffffb⟩

theorem render_exact_topCells :
    let probe : Probe := fun addr _ => if addr < 0xfffffffffffffff6 then none else some addr
    topCells.bytesPerLine.toNat + 7 < 2 ^ 64 ∧
      topCells.render probe = .ok ("0xfffffffffffffffa:   ???? ???? fff6 fff8\n" ++
        "0x0000000000000002:   fffa fffc fffe \n") := by
  intro probe
  have hwidth : topCells.bytesPerLine.toNat + 7 < 2 ^ 64 := by decide
  refine ⟨hwidth, (topCells.render_exact probe hwidth).1.trans (congrArg Except.ok ?_)⟩
  decide +kernel

end HexDump

namespace Frame

/-- A dump of sixteen bytes in a line never overflows. -/
theorem exists_render_sixteen (probe : Probe) (start stop : UInt64) (unit : FetchWidth)
    (logical : UInt64) :
    ∃ text, HexDump.render ⟨start, stop, unit, 16, logical⟩ probe = .ok text :=
  ⟨_, HexDump.render_eq _ probe (show (16 : UInt64).toNat + 7 < 2 ^ 64 by decide)⟩

/-- Whatever the registers hold, a frame has a text. -/
theorem exists_render (probe : Probe) (f : Frame) : ∃ text, f.render probe = .ok text := by
  obtain ⟨stack, hstack⟩ :=
    exists_render_sixteen probe f.sp (Word.addSat f.sp 512) .double f.sp
  obtain ⟨code, hcode⟩ := exists_render_sixteen probe (Word.subSat f.pc 256)
    (Word.addSat f.pc 256) .byte (Word.subSat f.pc 256)
  rw [render, renderStack, renderCode, hstack, hcode]
  exact ⟨_, rfl⟩

end Frame

end HostServices
