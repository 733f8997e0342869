import HostServices.Fault
import HostServices.Word

/-!
# Checked alignment

The alignment functions as callers meet them: rounding refuses an alignment that is no power of
two, and the two mask tests refuse zero, which has no mask.
-/

namespace HostServices.Alignment

/-- `Word.alignDown` for a power of two. -/
def down (value alignment : UInt64) : Except Fault UInt64 :=
  if Word.isPowerOfTwo alignment then .ok (Word.alignDown value alignment)
  else .error .alignmentNotPowerOfTwo

/-- `Word.alignUp` for a power of two. -/
def up (value alignment : UInt64) : Except Fault UInt64 :=
  if Word.isPowerOfTwo alignment then .ok (Word.alignUp value alignment)
  else .error .alignmentNotPowerOfTwo

/-- `Word.alignUp?` for an alignment that is not zero. -/
def up? (value alignment : UInt64) : Except Fault (Option UInt64) :=
  if alignment == 0 then .error .subOverflow else .ok (Word.alignUp? value alignment)

/-- `Word.isAligned` for an alignment that is not zero. -/
def test (value alignment : UInt64) : Except Fault Bool :=
  if alignment == 0 then .error .subOverflow else .ok (Word.isAligned value alignment)

end HostServices.Alignment
