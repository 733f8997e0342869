import HostServices.Diagnostics.HexDump

/-!
# Frames

The top of the stack and the code around the program counter, for a report about a trap.
-/

namespace HostServices

/-- The registers of a trap. -/
structure Frame where
  pc : UInt64
  sp : UInt64
  fp : UInt64
  deriving DecidableEq, Repr

namespace Frame

/-- The words at the top of the stack. -/
def renderStack (probe : Probe) (sp : UInt64) : Except Fault String := do
  let dump : HexDump := ⟨sp, Word.addSat sp 512, .double, 16, sp⟩
  return s!"\nTop of Stack: (sp={Hex.address sp})\n" ++ (← dump.render probe)

/-- The bytes around the program counter. -/
def renderCode (probe : Probe) (pc : UInt64) : Except Fault String := do
  let start := Word.subSat pc 256
  let dump : HexDump := ⟨start, Word.addSat pc 256, .byte, 16, start⟩
  return s!"Instructions: (pc={Hex.address pc})\n" ++ (← dump.render probe)

/-- The stack, then the code: of the two, the program counter is the likelier to be garbage. -/
def render (probe : Probe) (f : Frame) : Except Fault String := do
  let stack ← renderStack probe f.sp
  let code ← renderCode probe f.pc
  return stack ++ "\n" ++ code ++ "\n"

/-- The frame of a trap context, if there is one. -/
def renderContext (probe : Probe) (f : Option Frame) : Except Fault String :=
  f.elim (.ok "") (render probe)

end Frame

end HostServices
