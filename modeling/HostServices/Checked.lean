import HostServices.Fault
import HostServices.Word

/-!
# Checked arithmetic

Sums, differences and products that must be words.
-/

namespace HostServices.Checked

/-- The value of a result that must exist. -/
def orFault {α : Type} (fault : Fault) : Option α → Except Fault α
  | some a => .ok a
  | none => .error fault

/-- `a + b`, which must be a word. -/
def add (a b : UInt64) : Except Fault UInt64 :=
  orFault .addOverflow (Word.add? a b)

/-- `a - b`, which must be a word. -/
def sub (a b : UInt64) : Except Fault UInt64 :=
  orFault .subOverflow (Word.sub? a b)

/-- `a * b`, which must be a word. -/
def mul (a b : UInt64) : Except Fault UInt64 :=
  orFault .mulOverflow (Word.mul? a b)

end HostServices.Checked
