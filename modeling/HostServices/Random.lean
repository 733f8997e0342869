/-!
# Random numbers

The minimal standard generator: each value is `16807` times the last one modulo `2 ^ 31 - 1`. The
product is never formed as a whole. Its halves stay within 32 bits, and what lies above bit 31 is
folded back in, since `2 ^ 31` is one modulo the modulus.
-/

namespace HostServices

/-- A generator, given by the last value. -/
structure Random where
  seed : UInt32 := 1234567
  deriving DecidableEq, Repr

namespace Random

/-- The factor from one value to the next. -/
def multiplier : UInt32 := 16807

/-- The modulus, all of whose 31 bits are set. -/
def modulus : UInt32 := 0x7fffffff

/-- Fold a carry above bit 31 back in. -/
def fold (n : UInt32) : UInt32 :=
  if modulus < n then (n &&& modulus) + 1 else n

/-- The product of the low half of a seed. -/
def lowProduct (seed : UInt32) : UInt32 :=
  multiplier * (seed &&& 0xffff)

/-- The product of the high half of a seed. -/
def highProduct (seed : UInt32) : UInt32 :=
  multiplier * (seed >>> 16)

/-- The value after `seed`. -/
def step (seed : UInt32) : UInt32 :=
  let high := highProduct seed
  let low := fold (lowProduct seed + (high &&& 0x7fff) <<< 16)
  fold (low + high >>> 15)

/-- The next value, and the generator after it. -/
def next (r : Random) : UInt32 × Random :=
  let value := step r.seed
  (value, ⟨value⟩)

/-- The generator after `n` values. -/
def skip (r : Random) : Nat → Random
  | 0 => r
  | n + 1 => skip r.next.2 n

/-- The next `n` values. -/
def values (r : Random) : Nat → List UInt32
  | 0 => []
  | n + 1 => r.next.1 :: values r.next.2 n

end Random

end HostServices
