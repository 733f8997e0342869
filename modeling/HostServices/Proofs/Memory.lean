import HostServices.Memory
import HostServices.Proofs.Word
import Mathlib.Data.List.Basic

/-!
# Ranges of memory

What writes leave of the bytes of a range. Ranges go round at the top, so a byte is in a range if
its distance from the start is below the length (`InRange`); a write changes no byte out of its
range (`write_of_not_inRange`, `fill_of_not_inRange`), and what is read of a range that was written
is the part of the bytes that went there (`read_write`).
-/

namespace HostServices.Memory

variable {m m' : Memory} {start a : UInt64} {len : Nat}

/-! ## Ranges -/

/-- An address of one of the `len` bytes at `start`. -/
def InRange (start : UInt64) (len : Nat) (a : UInt64) : Prop :=
  (a - start).toNat < len

instance (start : UInt64) (len : Nat) (a : UInt64) : Decidable (InRange start len a) :=
  inferInstanceAs (Decidable ((a - start).toNat < len))

theorem toNat_add_sub (start : UInt64) {i : Nat} (hi : i < 2 ^ 64) :
    (start + UInt64.ofNat i - start).toNat = i := by
  rw [UInt64.add_comm, UInt64.add_sub_cancel]
  exact UInt64.toNat_ofNat_of_lt' hi

theorem inRange_add {i : Nat} (hi : i < len) (hlen : len ≤ 2 ^ 64) :
    InRange start len (start + UInt64.ofNat i) := by
  rw [InRange, toNat_add_sub start (Nat.lt_of_lt_of_le hi hlen)]
  exact hi

theorem InRange.eq_add (h : InRange start len a) :
    ∃ i < len, a = start + UInt64.ofNat i := by
  refine ⟨(a - start).toNat, h, ?_⟩
  rw [UInt64.ofNat_toNat, UInt64.add_comm, UInt64.sub_add_cancel]

/-- A range that ends in memory holds the addresses between its ends. -/
theorem inRange_iff (h : start.toNat + len ≤ 2 ^ 64) :
    InRange start len a ↔ start.toNat ≤ a.toNat ∧ a.toNat < start.toNat + len := by
  have hstart := start.toNat_lt
  have ha := a.toNat_lt
  rw [InRange, UInt64.toNat_sub]
  omega

/-- A part of a range. -/
theorem InRange.of_part {k l : Nat} (hk : k + l ≤ len) (hlen : len ≤ 2 ^ 64)
    (h : InRange (start + UInt64.ofNat k) l a) : InRange start len a := by
  obtain ⟨i, hi, rfl⟩ := h.eq_add
  rw [UInt64.add_assoc, ← UInt64.ofNat_add]
  exact inRange_add (by omega) hlen

/-- An address of a range is in what is left behind its first `k` bytes if it is not one of those. -/
theorem inRange_behind_iff {k n : UInt64} (hk : k.toNat ≤ n.toNat) {i : Nat} (hi : i < n.toNat) :
    InRange (start + k) (n - k).toNat (start + UInt64.ofNat i) ↔ k.toNat ≤ i := by
  have hlt := n.toNat_lt
  have hdistance : start + UInt64.ofNat i - (start + k) = UInt64.ofNat i - k := by grind
  rw [InRange, hdistance, UInt64.toNat_sub, UInt64.toNat_ofNat_of_lt' (Nat.lt_trans hi hlt),
    Word.toNat_sub_of_le hk]
  omega

/-- What is read of a part of a range. -/
theorem read_part (m : Memory) (start : UInt64) {k l : Nat} (h : k + l ≤ len) :
    m.read (start + UInt64.ofNat k) l = ((m.read start len).drop k).take l := by
  refine List.ext_getElem (by simp [read]; omega) fun i _ _ => ?_
  have hadd : start + UInt64.ofNat k + UInt64.ofNat i = start + UInt64.ofNat (k + i) := by
    rw [UInt64.ofNat_add, UInt64.add_assoc]
  simp [read, hadd]

theorem apply_of_read {start' : UInt64} {i : Nat} (h : m'.read start' len = m.read start len)
    (hi : i < len) : m' (start' + UInt64.ofNat i) = m (start + UInt64.ofNat i) := by
  have hget := congrArg (·[i]?) h
  simpa [read, hi] using hget

/-- Two memories hold the same `len` bytes at `start`. -/
def SameBytes (m m' : Memory) (start : UInt64) (len : Nat) : Prop :=
  ∀ a, InRange start len a → m' a = m a

namespace SameBytes

theorem refl (m : Memory) (start : UInt64) (len : Nat) : SameBytes m m start len :=
  fun _ _ => rfl

theorem trans {m'' : Memory} (h : SameBytes m m' start len) (h' : SameBytes m' m'' start len) :
    SameBytes m m'' start len :=
  fun a ha => (h' a ha).trans (h a ha)

theorem part (h : SameBytes m m' start len) {k l : Nat} (hk : k + l ≤ len) (hlen : len ≤ 2 ^ 64) :
    SameBytes m m' (start + UInt64.ofNat k) l :=
  fun a ha => h a (ha.of_part hk hlen)

theorem apply (h : SameBytes m m' start len) {k : Nat} (hk : k < len) (hlen : len ≤ 2 ^ 64) :
    m' (start + UInt64.ofNat k) = m (start + UInt64.ofNat k) :=
  h _ (inRange_add hk hlen)

theorem read (h : SameBytes m m' start len) (hlen : len ≤ 2 ^ 64) :
    m'.read start len = m.read start len :=
  List.map_congr_left fun _ hi => h _ (inRange_add (List.mem_range.1 hi) hlen)

theorem number (h : SameBytes m m' start len) (hlen : len ≤ 2 ^ 64) :
    m'.number start len = m.number start len :=
  congrArg ofLittleEndian (h.read hlen)

end SameBytes

/-! ## Writes -/

theorem write_of_not_inRange {bs : Array UInt8} (h : ¬ InRange start bs.size a) :
    m.write start bs a = m a :=
  dif_neg h

theorem write_add {bs : Array UInt8} {i : Nat} (hi : i < bs.size) (hsize : bs.size ≤ 2 ^ 64) :
    m.write start bs (start + UInt64.ofNat i) = bs[i] := by
  have hoffset := toNat_add_sub start (Nat.lt_of_lt_of_le hi hsize)
  unfold write
  simp only [hoffset, hi, dif_pos]

/-- What bytes are written on does not matter. -/
theorem write_of_inRange {bs : Array UInt8} (h : InRange start bs.size a) (m m' : Memory) :
    m.write start bs a = m'.write start bs a := by
  have hin : (a - start).toNat < bs.size := h
  simp only [write, hin, dif_pos]

theorem fill_of_inRange {n : UInt64} {b : UInt8} (h : InRange start n.toNat a) :
    m.fill start n b a = b :=
  if_pos (UInt64.lt_iff_toNat_lt.2 h)

theorem fill_of_not_inRange {n : UInt64} {b : UInt8} (h : ¬ InRange start n.toNat a) :
    m.fill start n b a = m a :=
  if_neg fun hlt => h (UInt64.lt_iff_toNat_lt.1 hlt)

theorem copy_of_not_inRange {source n : UInt64} (h : ¬ InRange start n.toNat a) :
    m.copy source start n a = m a :=
  if_neg fun hlt => h (UInt64.lt_iff_toNat_lt.1 hlt)

theorem copy_add {source n : UInt64} {i : Nat} (hi : i < n.toNat) :
    m.copy source start n (start + UInt64.ofNat i) = m (source + UInt64.ofNat i) := by
  have hlt : i < 2 ^ 64 := Nat.lt_trans hi n.toNat_lt
  have hoffset : start + UInt64.ofNat i - start = UInt64.ofNat i := by
    rw [UInt64.add_comm, UInt64.add_sub_cancel]
  have hin : UInt64.ofNat i < n := by
    rwa [UInt64.lt_iff_toNat_lt, UInt64.toNat_ofNat_of_lt' hlt]
  unfold copy
  rw [hoffset, if_pos hin]

theorem read_copy {source n : UInt64} (h : len ≤ n.toNat) :
    (m.copy source start n).read start len = m.read source len :=
  List.map_congr_left fun _ hi => copy_add (Nat.lt_of_lt_of_le (List.mem_range.1 hi) h)

theorem writeNumber_of_not_inRange {width n : Nat} (h : ¬ InRange start width a) :
    m.writeNumber start width n a = m a :=
  write_of_not_inRange (by simpa [length_littleEndian] using h)

/-- What a number is written on does not matter. -/
theorem writeNumber_of_inRange {width n : Nat} (h : InRange start width a) (m m' : Memory) :
    m.writeNumber start width n a = m'.writeNumber start width n a :=
  write_of_inRange (by simpa [length_littleEndian] using h) m m'

theorem read_write_self {bs : Array UInt8} (hsize : bs.size ≤ 2 ^ 64) :
    (m.write start bs).read start bs.size = bs.toList := by
  refine List.ext_getElem (by simp [read]) fun i hi _ => ?_
  have hi : i < bs.size := by simpa [read] using hi
  simp only [read, List.getElem_map, List.getElem_range, write_add hi hsize, Array.getElem_toList]

/-- What is read of a part of a range that was written. -/
theorem read_write {bs : Array UInt8} {k : Nat} (hk : k + len ≤ bs.size) (hsize : bs.size ≤ 2 ^ 64) :
    (m.write start bs).read (start + UInt64.ofNat k) len = (bs.toList.drop k).take len := by
  rw [read_part _ _ hk, read_write_self hsize]

/-- A number that its bytes have room for is read back. -/
theorem number_writeNumber {width n : Nat} (hwidth : width ≤ 2 ^ 64) (hn : n < 1 <<< (8 * width)) :
    (m.writeNumber start width n).number start width = n := by
  have hsize : (littleEndian width n).toArray.size = width := by simp [length_littleEndian]
  have hread : (m.writeNumber start width n).read start (littleEndian width n).toArray.size =
      littleEndian width n := read_write_self (hsize.symm ▸ hwidth)
  rw [hsize] at hread
  rw [number, hread, ofLittleEndian_littleEndian, Nat.mod_eq_of_lt hn]

theorem littleEndian_ofLittleEndian (bs : List UInt8) :
    littleEndian bs.length (ofLittleEndian bs) = bs := by
  induction bs with
  | nil => rfl
  | cons b bs ih =>
    have hb := b.toNat_lt
    have hlow : (b.toNat + 256 * ofLittleEndian bs) % 256 = b.toNat := by omega
    have hhigh : (b.toNat + 256 * ofLittleEndian bs) / 256 = ofLittleEndian bs := by omega
    rw [List.length_cons, littleEndian, ofLittleEndian, hlow, hhigh, ih, UInt8.ofNat_toNat]

theorem ofLittleEndian_lt (bs : List UInt8) : ofLittleEndian bs < 256 ^ bs.length := by
  induction bs with
  | nil => exact Nat.one_pos
  | cons b bs ih =>
    have hb := b.toNat_lt
    rw [ofLittleEndian, List.length_cons, Nat.pow_succ]
    omega

theorem number_lt (m : Memory) (start : UInt64) (width : Nat) :
    m.number start width < 256 ^ width := by
  have := ofLittleEndian_lt (m.read start width)
  rwa [show (m.read start width).length = width by simp [read]] at this

/-- Writing what was read changes nothing. -/
theorem writeNumber_number {width : Nat} (hwidth : width ≤ 2 ^ 64) :
    m.writeNumber start width (m.number start width) = m := by
  have hbytes : littleEndian width (m.number start width) = m.read start width := by
    have := littleEndian_ofLittleEndian (m.read start width)
    rwa [show (m.read start width).length = width by simp [read]] at this
  have hsize : (m.read start width).toArray.size = width := by simp [read]
  funext a
  unfold writeNumber
  rw [hbytes]
  by_cases ha : InRange start width a
  · obtain ⟨i, hi, rfl⟩ := ha.eq_add
    rw [write_add (by omega) (by omega)]
    simp [read]
  · exact write_of_not_inRange (hsize.symm ▸ ha)

end HostServices.Memory
