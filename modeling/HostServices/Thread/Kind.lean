/-!
# Thread kinds
-/

namespace HostServices

/-- What a thread is for. -/
inductive ThreadKind
  | java
  | compiler
  | vmInternal
  | concurrentGc
  deriving DecidableEq, Repr

/-- The name of a kind. -/
def ThreadKind.name : ThreadKind → String
  | java => "java"
  | compiler => "compiler"
  | vmInternal => "vm internal"
  | concurrentGc => "concurrent gc"

end HostServices
