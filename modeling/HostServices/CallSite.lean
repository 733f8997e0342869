import HostServices.Text.Align
import HostServices.Text.Hex

/-!
# Call sites

Where memory was asked for: the source location of the request, and up to four return addresses.
-/

namespace HostServices

/-- A place in source text. -/
structure CallSite where
  file : String
  line : Nat
  column : Nat
  deriving DecidableEq, Repr

/-- `file:line:column`. -/
def CallSite.display (s : CallSite) : String :=
  s!"{s.file}:{s.line}:{s.column}"

/-- The form for inspection. -/
def CallSite.inspect (s : CallSite) : String :=
  s!"CallSite({s.display})"

/-- The return addresses of a request, innermost first. -/
structure CallStack where
  frames : List UInt64
  length_le : frames.length ≤ 4 := by decide
  deriving DecidableEq

namespace CallStack

/-- No return addresses. -/
def empty : CallStack where
  frames := []

/-- The first four addresses of `pcs`. -/
def ofFrames (pcs : List UInt64) : CallStack where
  frames := pcs.take 4
  length_le := by simp only [List.length_take]; omega

/-- Nothing was captured. -/
def isEmpty (s : CallStack) : Bool :=
  s.frames.isEmpty

/-- One line for each frame, behind `indent` blanks. -/
def render (s : CallStack) (indent : Nat) : String :=
  String.join (s.frames.map fun pc => s!"{Text.blanks indent}[{Hex.word pc}]\n")

/-- The form for inspection: a list of quoted addresses. -/
def inspect (s : CallStack) : String :=
  "[" ++ ", ".intercalate (s.frames.map fun pc => s!"\"{Hex.word pc}\"") ++ "]"

end CallStack

end HostServices
