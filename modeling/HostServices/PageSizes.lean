import HostServices.ByteSize
import HostServices.Checked
import HostServices.Text.Hex

/-!
# Page sizes

A set of powers of two, kept as the mask of its members, so that the members below and above a
size are the bits below and above its bit.
-/

namespace HostServices

/-- A set of page sizes. -/
structure PageSizes where
  mask : UInt64 := 0
  deriving DecidableEq, Repr

namespace PageSizes

/-- Add a size, which must be a power of two. -/
def add (p : PageSizes) (size : UInt64) : Except Fault PageSizes :=
  if Word.isPowerOfTwo size then .ok ⟨p.mask ||| size⟩ else .error (.pageSizeNotPowerOfTwo size)

/-- The set of some sizes, which must be powers of two. -/
def ofList (sizes : List UInt64) : Except Fault PageSizes :=
  sizes.foldlM add {}

/-- A bit of `size` is in the mask. -/
def contains (p : PageSizes) (size : UInt64) : Bool :=
  p.mask &&& size != 0

/-- The highest bit of a mask, zero for none. -/
def highest (mask : UInt64) : UInt64 :=
  if mask = 0 then 0 else 1 <<< UInt64.ofNat (Word.log2 mask)

/-- The lowest bit of a mask, zero for none. -/
def lowest (mask : UInt64) : UInt64 :=
  mask &&& (0 - mask)

/-- The largest member below `size`, zero for none. -/
def nextSmaller (p : PageSizes) (size : UInt64) : UInt64 :=
  highest (p.mask &&& (size - 1))

theorem toNat_highest {mask : UInt64} (h : mask ≠ 0) :
    (highest mask).toNat = 1 <<< mask.toNat.log2 := by
  have hm : mask.toNat ≠ 0 := by simpa [← UInt64.toNat_inj] using h
  have hl : mask.toNat.log2 < 64 := (Nat.log2_lt hm).2 mask.toNat_lt
  have he : (UInt64.ofNat mask.toNat.log2).toNat = mask.toNat.log2 := by
    simp only [UInt64.toNat_ofNat']
    exact Nat.mod_eq_of_lt (Nat.lt_trans hl (by decide))
  simp only [highest, h, if_false, Word.log2, UInt64.toNat_shiftLeft, he,
    Nat.mod_eq_of_lt hl, UInt64.toNat_one, Nat.one_shiftLeft]
  exact Nat.mod_eq_of_lt (Nat.pow_lt_pow_right (by decide) hl)

theorem toNat_highest_le (mask : UInt64) : (highest mask).toNat ≤ mask.toNat := by
  by_cases h : mask = 0
  · simp [highest, h]
  · rw [toNat_highest h, Nat.one_shiftLeft]
    exact Nat.log2_self_le (by simpa [← UInt64.toNat_inj] using h)

theorem nextSmaller_lt {p : PageSizes} {size : UInt64} (h : size ≠ 0) :
    (p.nextSmaller size).toNat < size.toNat := by
  have hs : 1 ≤ size.toNat := by
    have : size.toNat ≠ 0 := by simpa [← UInt64.toNat_inj] using h
    omega
  have hle : (p.mask &&& (size - 1)).toNat ≤ (size - 1).toNat := by
    simpa using Nat.and_le_right
  have h1 : (size - 1).toNat = size.toNat - 1 := by
    rw [UInt64.toNat_sub_of_le _ _ (by rw [UInt64.le_iff_toNat_le]; simpa using hs)]
    rfl
  have := toNat_highest_le (p.mask &&& (size - 1))
  simp only [nextSmaller]
  omega

/-- The smallest member above `size`, zero for none. -/
def nextLarger (p : PageSizes) (size : UInt64) : UInt64 :=
  lowest (p.mask &&& ~~~(size ||| (size - 1)))

/-- The largest member, zero for none. -/
def largest (p : PageSizes) : UInt64 :=
  let top : UInt64 := 0x8000000000000000
  if p.contains top then top else p.nextSmaller top

/-- The smallest member, zero for none. -/
def smallest (p : PageSizes) : UInt64 :=
  if p.contains 1 then 1 else p.nextLarger 1

/-- There are no members. -/
def isEmpty (p : PageSizes) : Bool :=
  p.mask == 0

/-- At most `count` members, upwards from `size`; zero ends the list. -/
def upwards (p : PageSizes) : (count : Nat) → (size : UInt64) → List UInt64
  | 0, _ => []
  | count + 1, size => if size = 0 then [] else size :: upwards p count (p.nextLarger size)

/-- The members in increasing order; a word has no more than 64 bits. -/
def members (p : PageSizes) : List UInt64 :=
  p.upwards 64 p.smallest

/-- A size in the largest unit that is not above it, rounded down. -/
def sizeText (size : UInt64) : String :=
  let n := size.toNat
  if n < 1 <<< 20 then s!"{n >>> 10}k"
  else if n < 1 <<< 30 then s!"{n >>> 20}M"
  else s!"{n >>> 30}G"

/-- The members as text. -/
def display (p : PageSizes) : String :=
  if p.isEmpty then "empty" else ", ".intercalate (p.members.map sizeText)

end PageSizes

end HostServices
