import HostServices.Op

/-!
# Running out of memory

The end of the process over an allocation that it cannot do without.
-/

namespace HostServices.OutOfMemory

variable {σ α : Type}

/-- What the process writes before it ends. -/
def notice (size : UInt64) (context : String) : String :=
  "#\n# There is insufficient memory for the runtime to continue.\n" ++
    s!"# Native memory allocation ({context}) failed to allocate {size.toNat} bytes.\n#\n"

/-- End the process. -/
def exit (size : UInt64) (context : String) : Op σ α := do
  Op.report .error .malloc "native memory exhausted"
    [("size", .word size), ("context", .string context)]
  Op.stop (.exit 1 (notice size context))

end HostServices.OutOfMemory
