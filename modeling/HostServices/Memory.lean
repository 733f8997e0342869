/-!
# Memory

The bytes of an address space, as a function of the address. Ranges go round at the top: the range
of `len` bytes at `start` holds the addresses whose distance from `start` is below `len`.
-/

namespace HostServices

/-- The byte at each address. -/
abbrev Memory := UInt64 → UInt8

namespace Memory

/-- Zero everywhere. -/
def zero : Memory :=
  fun _ => 0

/-- The `len` bytes at `start`. -/
def read (m : Memory) (start : UInt64) (len : Nat) : List UInt8 :=
  (List.range len).map fun i => m (start + UInt64.ofNat i)

/-- Put `bs` at `start`. -/
def write (m : Memory) (start : UInt64) (bs : Array UInt8) : Memory := fun a =>
  let i := (a - start).toNat
  if h : i < bs.size then bs[i] else m a

/-- Put `b` into each of the `len` bytes at `start`. -/
def fill (m : Memory) (start len : UInt64) (b : UInt8) : Memory :=
  fun a => if a - start < len then b else m a

/-- Put the `len` bytes at `source` to `target`. -/
def copy (m : Memory) (source target len : UInt64) : Memory :=
  fun a => if a - target < len then m (source + (a - target)) else m a

/-- A number as `width` bytes, the low one first. -/
def littleEndian : Nat → Nat → List UInt8
  | 0, _ => []
  | width + 1, n => UInt8.ofNat (n % 256) :: littleEndian width (n / 256)

/-- The number that bytes stand for, the low one first. -/
def ofLittleEndian : List UInt8 → Nat
  | [] => 0
  | b :: bs => b.toNat + 256 * ofLittleEndian bs

theorem length_littleEndian (width n : Nat) : (littleEndian width n).length = width := by
  induction width generalizing n with
  | zero => rfl
  | succ w ih => simp [littleEndian, ih]

theorem ofLittleEndian_littleEndian (width n : Nat) :
    ofLittleEndian (littleEndian width n) = n % 1 <<< (8 * width) := by
  rw [Nat.shiftLeft_eq, Nat.one_mul, Nat.pow_mul]
  show _ = n % 256 ^ width
  induction width generalizing n with
  | zero => simp [littleEndian, ofLittleEndian, Nat.mod_one]
  | succ w ih =>
    have low : (UInt8.ofNat (n % 256)).toNat = n % 256 := by simp
    rw [littleEndian, ofLittleEndian, ih, low, Nat.pow_succ', Nat.mod_mul]

/-- The number in the `width` bytes at `start`. -/
def number (m : Memory) (start : UInt64) (width : Nat) : Nat :=
  ofLittleEndian (m.read start width)

/-- Put a number into the `width` bytes at `start`. -/
def writeNumber (m : Memory) (start : UInt64) (width n : Nat) : Memory :=
  m.write start (littleEndian width n).toArray

end Memory

end HostServices
