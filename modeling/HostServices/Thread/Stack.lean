import HostServices.Alignment
import HostServices.Checked
import HostServices.Op
import HostServices.ServiceError
import HostServices.Thread.Kind

/-!
# Stack sizes

The smallest stack of each kind of thread, and the size of the stack that a new thread gets. The
stacks of managed and compiler threads need room for the guard and shadow zones.
-/

namespace HostServices

/-- The settings of stacks, in bytes; a requested size of zero asks for the default. -/
structure StackConfig where
  pageSize : UInt64
  /-- The smallest stack that the host accepts. -/
  osMinimum : UInt64
  guardZone : UInt64
  shadowZone : UInt64
  javaBase : UInt64
  compilerBase : UInt64
  vmInternalBase : UInt64
  javaRequested : UInt64
  compilerRequested : UInt64
  vmRequested : UInt64
  deriving DecidableEq, Repr

/-- Sizes that passed all checks. -/
structure StackSizes where
  javaMinimum : UInt64
  compilerMinimum : UInt64
  vmInternalMinimum : UInt64
  /-- The size for new managed threads, zero for the default. -/
  javaAtCreate : UInt64
  compilerRequested : UInt64
  vmRequested : UInt64
  pageSize : UInt64
  deriving DecidableEq, Repr

namespace StackConfig

/-- 64 KiB. -/
def base : UInt64 := 65536

/-- The settings for a page size. -/
def ofPageSize (page : UInt64) : Except Fault StackConfig := do
  let guardZone ← Checked.mul 4 page
  let shadowZone ← Checked.mul 20 page
  return ⟨page, 16384, guardZone, shadowZone, base, base, base, 0, 0, 0⟩

/-- The smallest stack over a number of bytes: whole pages, and no less than the host accepts. -/
def minimum (config : StackConfig) (bytes : UInt64) : Except Fault UInt64 := do
  return Word.max (← Alignment.up bytes config.pageSize) config.osMinimum

/-- Refuse a requested size below the smallest one. -/
def accept (kind : String) (requested least : UInt64) : Except ServiceError Unit :=
  if requested ≠ 0 ∧ requested < least then .error (.stackTooSmall kind (least / 1024)) else .ok ()

/-- The smallest sizes, if the requested ones are not below them. They are worked out and checked
one kind after the other. -/
def sizes (config : StackConfig) : Except Fault (Except ServiceError StackSizes) := do
  let zones ← Checked.add config.guardZone config.shadowZone
  let java ← config.minimum (← Checked.add config.javaBase zones)
  match accept "Java thread stack size" config.javaRequested java with
  | .error e => return .error e
  | .ok () =>
  let compiler ← config.minimum (← Checked.add config.compilerBase zones)
  match accept "CompilerThreadStackSize" config.compilerRequested compiler with
  | .error e => return .error e
  | .ok () =>
  let vmInternal ← config.minimum config.vmInternalBase
  match accept "VMThreadStackSize" config.vmRequested vmInternal with
  | .error e => return .error e
  | .ok () =>
  let atCreate ← Alignment.up config.javaRequested config.pageSize
  return .ok ⟨java, compiler, vmInternal, atCreate, config.compilerRequested, config.vmRequested,
    config.pageSize⟩

/-- `sizes`, with a report of them. -/
def setMinimumSizes {σ : Type} (config : StackConfig) : Op σ (Except ServiceError StackSizes) := do
  match ← Op.check config.sizes with
  | .error e => return .error e
  | .ok s =>
    Op.report .debug .thread "minimum stack sizes"
      [("java_min", .word s.javaMinimum), ("compiler_min", .word s.compilerMinimum),
       ("vm_internal_min", .word s.vmInternalMinimum)]
    return .ok s

end StackConfig

namespace StackSizes

/-- The host's default size for a kind. -/
def default : ThreadKind → UInt64
  | .compiler => 4 * 1024 * 1024
  | .java | .vmInternal | .concurrentGc => 1024 * 1024

/-- The configured size of a kind, zero for none. -/
def configured (s : StackSizes) : ThreadKind → UInt64
  | .java => s.javaAtCreate
  | .compiler => s.compilerRequested
  | .vmInternal | .concurrentGc => s.vmRequested

/-- The smallest size of a kind. -/
def minimum (s : StackSizes) : ThreadKind → UInt64
  | .java => s.javaMinimum
  | .compiler => s.compilerMinimum
  | .vmInternal | .concurrentGc => s.vmInternalMinimum

/-- The size of the stack for a new thread: the requested one, else the configured one, else the
default; no less than the smallest, and whole pages. -/
def initial (s : StackSizes) (kind : ThreadKind) (requested : UInt64) : Except Fault UInt64 :=
  let size :=
    if requested ≠ 0 then requested
    else if 0 < s.configured kind then s.configured kind
    else default kind
  Alignment.up (Word.max size (s.minimum kind)) s.pageSize

end StackSizes

end HostServices
