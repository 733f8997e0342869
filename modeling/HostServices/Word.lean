/-!
# Machine words

Addresses and byte counts are 64-bit words. `Word.add?` and its companions say which results are
words; the alignment functions work on bit masks and mean rounding when the alignment is a power
of two.
-/

namespace HostServices.Word

/-- The largest word. -/
def top : UInt64 := 0xffffffffffffffff

/-- `a + b`, when that is a word. -/
def add? (a b : UInt64) : Option UInt64 :=
  if a.toNat + b.toNat < UInt64.size then some (a + b) else none

/-- `a * b`, when that is a word. -/
def mul? (a b : UInt64) : Option UInt64 :=
  if a.toNat * b.toNat < UInt64.size then some (a * b) else none

/-- `a - b`, when that is a word. -/
def sub? (a b : UInt64) : Option UInt64 :=
  if b ≤ a then some (a - b) else none

/-- `a + b`, held at the top of the range. -/
def addSat (a b : UInt64) : UInt64 :=
  (add? a b).getD top

/-- `a - b`, held at zero. -/
def subSat (a b : UInt64) : UInt64 :=
  (sub? a b).getD 0

/-- The larger of two words. -/
def max (a b : UInt64) : UInt64 :=
  if a < b then b else a

/-- The smaller of two words. -/
def min (a b : UInt64) : UInt64 :=
  if a < b then a else b

/-- Exactly one bit is set. -/
def isPowerOfTwo (n : UInt64) : Bool :=
  n != 0 && n &&& (n - 1) == 0

/-- `value` without the bits below `alignment`. -/
def alignDown (value alignment : UInt64) : UInt64 :=
  value &&& ~~~(alignment - 1)

/-- The least multiple of `alignment` not below `value`, modulo the word size. -/
def alignUp (value alignment : UInt64) : UInt64 :=
  (value + (alignment - 1)) &&& ~~~(alignment - 1)

/-- `alignUp`, when no carry leaves the word. -/
def alignUp? (value alignment : UInt64) : Option UInt64 :=
  (add? value (alignment - 1)).map (· &&& ~~~(alignment - 1))

/-- No bit of `value` is below `alignment`. -/
def isAligned (value alignment : UInt64) : Bool :=
  value &&& (alignment - 1) == 0

/-- The index of the highest bit of `n`, which is not zero. -/
def log2 (n : UInt64) : Nat :=
  n.toNat.log2

end HostServices.Word
