import HostServices.Kernel

/-!
# Areas of an address space

An area is a half-open range of addresses whose pages allow the same accesses and get their bytes
from the same place. Cutting an area at some addresses loses none of them: what lies inside and
what lies outside of a range are together the area.
-/

namespace HostServices

/-- The size of a page. -/
def AddressSpace.pageSize : Nat := 4096

/-- Where the bytes of an area come from. -/
inductive Backing
  /-- Zeros. A reserved area takes no memory of the host. -/
  | zeros (reserved : Bool)
  /-- The file from an offset on. Changes reach the file if it is shared. -/
  | file (offset : Nat) (shared : Bool)
  deriving DecidableEq, Repr

namespace Backing

/-- The backing of what lies `n` bytes further on. -/
def advance (n : Nat) : Backing → Backing
  | zeros reserved => zeros reserved
  | file offset shared => file (offset + n) shared

/-- Changes are seen by others. -/
def isShared : Backing → Bool
  | zeros _ => false
  | file _ shared => shared

end Backing

/-- A range of pages of one kind. -/
structure Area where
  start : Nat
  stop : Nat
  access : Access
  backing : Backing
  /-- The host was told to prefer large pages. -/
  large : Bool := false
  deriving DecidableEq, Repr

namespace Area

/-- An address lies in the area. -/
def covers (r : Area) (a : Nat) : Bool :=
  r.start ≤ a && a < r.stop

/-- The area has addresses in `[lo, hi)`. -/
def overlaps (r : Area) (lo hi : Nat) : Bool :=
  r.start < hi && lo < r.stop && lo < hi && r.start < r.stop

/-- The part of the area in `[lo, hi)`, unless that is empty. -/
def clip (r : Area) (lo hi : Nat) : Option Area :=
  let start := Nat.max r.start lo
  let stop := Nat.min r.stop hi
  if start < stop then
    some { r with start, stop, backing := r.backing.advance (start - r.start) }
  else none

/-- The parts of the area below `lo` and from `hi` on. -/
def outside (r : Area) (lo hi : Nat) : List Area :=
  (r.clip 0 lo).toList ++ (r.clip (Nat.max lo hi) r.stop).toList

/-- The area with its part in `[lo, hi)` changed. -/
def changeWithin (r : Area) (lo hi : Nat) (f : Area → Area) : List Area :=
  r.outside lo hi ++ ((r.clip lo hi).map f).toList

/-- Another area goes on where this one stops, in the same way. -/
def continuedBy (r s : Area) : Bool :=
  r.stop = s.start && r.access = s.access && r.large = s.large &&
    r.backing.advance (r.stop - r.start) = s.backing

theorem clip_covers (r : Area) (lo hi a : Nat) :
    (r.clip lo hi).any (·.covers a) = (r.covers a && lo ≤ a && a < hi) := by
  unfold clip
  simp only [Nat.max_def, Nat.min_def]
  split <;> simp only [covers] <;> grind

theorem outside_covers (r : Area) (lo hi a : Nat) (h : lo ≤ hi) :
    (r.outside lo hi).any (·.covers a) = (r.covers a && (a < lo || hi ≤ a)) := by
  have below := clip_covers r 0 lo a
  have above := clip_covers r (Nat.max lo hi) r.stop a
  have split (o : Option Area) : o.toList.any (·.covers a) = o.any (·.covers a) := by
    cases o <;> simp
  rw [outside, List.any_append, split, split, below, above]
  have : Nat.max lo hi = hi := Nat.max_eq_right h
  simp only [covers, this]
  grind

end Area

end HostServices
