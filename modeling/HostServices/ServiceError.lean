import HostServices.Errno

/-!
# Service errors

What paths, thread priorities, stack sizes, host calls and the signal dispatcher report.
-/

namespace HostServices

/-- Why a service was refused. -/
inductive ServiceError
  /-- The host call `operation` failed. -/
  | platform (operation : String) (errno : Errno)
  /-- An element of a search path with its file name would not fit in a host path. -/
  | pathTooLong (length limit : UInt64)
  | invalidPriority (priority : Int) (kind : String)
  | priorityTable (reason : String)
  | stackTooSmall (kind : String) (minKib : UInt64)
  | unsupported (feature : String)
  | signalThread (reason : String)
  deriving DecidableEq, Repr

namespace ServiceError

/-- The text of an error. -/
def message : ServiceError → String
  | platform operation e => s!"{operation} failed: {e.display}"
  | pathTooLong length limit =>
    "the VM tried to use a path that exceeds the maximum path length for this system " ++
      s!"({length.toNat} > {limit.toNat}); review path-containing parameters and properties"
  | invalidPriority priority kind => s!"priority {priority} is not valid for a {kind} thread"
  | priorityTable reason => s!"invalid native priority table: {reason}"
  | stackTooSmall kind minKib =>
    s!"The {kind} specified is too small. Specify at least {minKib.toNat}k"
  | unsupported feature => s!"Feature not supported: {feature}"
  | signalThread reason => s!"Signal dispatcher error: {reason}"

/-- The code that sorts errors. -/
def code : ServiceError → String
  | platform .. => "SYS:PLATFORM"
  | pathTooLong .. => "SYS:PATH:TOO_LONG"
  | invalidPriority .. => "SYS:THREAD:PRIORITY"
  | priorityTable .. => "SYS:THREAD:PRIORITY_TABLE"
  | stackTooSmall .. => "SYS:THREAD:STACK"
  | unsupported .. => "SYS:UNSUPPORTED"
  | signalThread .. => "SYS:SIGNAL"

/-- The host's code, when a host call failed. -/
def errno? : ServiceError → Option Errno
  | platform _ e => some e
  | _ => none

end ServiceError

end HostServices
