/-!
# Host error codes

Two fixed tables: the symbolic name and long description of a code, and the message of the host's
own library. Neither depends on a locale.
-/

namespace HostServices

/-- A host error code. -/
structure Errno where
  code : Int
  deriving DecidableEq, Repr

namespace Errno

/-- A code with its symbolic name and long description. -/
structure Entry where
  code : Int
  name : String
  description : String

/-- The known codes. Two names for one code resolve to the first. -/
def table : List Entry := [
  ⟨7, "E2BIG", "Argument list too long"⟩,
  ⟨13, "EACCES", "Permission denied"⟩,
  ⟨98, "EADDRINUSE", "Address in use"⟩,
  ⟨99, "EADDRNOTAVAIL", "Address not available"⟩,
  ⟨97, "EAFNOSUPPORT", "Address family not supported"⟩,
  ⟨11, "EAGAIN", "Resource unavailable, try again"⟩,
  ⟨114, "EALREADY", "Connection already in progress"⟩,
  ⟨9, "EBADF", "Bad file descriptor"⟩,
  ⟨74, "EBADMSG", "Bad message"⟩,
  ⟨16, "EBUSY", "Device or resource busy"⟩,
  ⟨125, "ECANCELED", "Operation canceled"⟩,
  ⟨10, "ECHILD", "No child processes"⟩,
  ⟨103, "ECONNABORTED", "Connection aborted"⟩,
  ⟨111, "ECONNREFUSED", "Connection refused"⟩,
  ⟨104, "ECONNRESET", "Connection reset"⟩,
  ⟨35, "EDEADLK", "Resource deadlock would occur"⟩,
  ⟨89, "EDESTADDRREQ", "Destination address required"⟩,
  ⟨33, "EDOM", "Mathematics argument out of domain of function"⟩,
  ⟨17, "EEXIST", "File exists"⟩,
  ⟨14, "EFAULT", "Bad address"⟩,
  ⟨27, "EFBIG", "File too large"⟩,
  ⟨113, "EHOSTUNREACH", "Host is unreachable"⟩,
  ⟨43, "EIDRM", "Identifier removed"⟩,
  ⟨84, "EILSEQ", "Illegal byte sequence"⟩,
  ⟨115, "EINPROGRESS", "Operation in progress"⟩,
  ⟨4, "EINTR", "Interrupted function"⟩,
  ⟨22, "EINVAL", "Invalid argument"⟩,
  ⟨5, "EIO", "I/O error"⟩,
  ⟨106, "EISCONN", "Socket is connected"⟩,
  ⟨21, "EISDIR", "Is a directory"⟩,
  ⟨40, "ELOOP", "Too many levels of symbolic links"⟩,
  ⟨24, "EMFILE", "Too many open files"⟩,
  ⟨31, "EMLINK", "Too many links"⟩,
  ⟨90, "EMSGSIZE", "Message too large"⟩,
  ⟨36, "ENAMETOOLONG", "Filename too long"⟩,
  ⟨100, "ENETDOWN", "Network is down"⟩,
  ⟨102, "ENETRESET", "Connection aborted by network"⟩,
  ⟨101, "ENETUNREACH", "Network unreachable"⟩,
  ⟨23, "ENFILE", "Too many files open in system"⟩,
  ⟨105, "ENOBUFS", "No buffer space available"⟩,
  ⟨19, "ENODEV", "No such device"⟩,
  ⟨2, "ENOENT", "No such file or directory"⟩,
  ⟨8, "ENOEXEC", "Executable file format error"⟩,
  ⟨37, "ENOLCK", "No locks available"⟩,
  ⟨12, "ENOMEM", "Not enough space"⟩,
  ⟨42, "ENOMSG", "No message of the desired type"⟩,
  ⟨92, "ENOPROTOOPT", "Protocol not available"⟩,
  ⟨28, "ENOSPC", "No space left on device"⟩,
  ⟨38, "ENOSYS", "Function not supported"⟩,
  ⟨107, "ENOTCONN", "The socket is not connected"⟩,
  ⟨20, "ENOTDIR", "Not a directory"⟩,
  ⟨39, "ENOTEMPTY", "Directory not empty"⟩,
  ⟨88, "ENOTSOCK", "Not a socket"⟩,
  ⟨95, "ENOTSUP", "Not supported"⟩,
  ⟨25, "ENOTTY", "Inappropriate I/O control operation"⟩,
  ⟨6, "ENXIO", "No such device or address"⟩,
  ⟨95, "EOPNOTSUPP", "Operation not supported on socket"⟩,
  ⟨75, "EOVERFLOW", "Value too large to be stored in data type"⟩,
  ⟨1, "EPERM", "Operation not permitted"⟩,
  ⟨32, "EPIPE", "Broken pipe"⟩,
  ⟨71, "EPROTO", "Protocol error"⟩,
  ⟨93, "EPROTONOSUPPORT", "Protocol not supported"⟩,
  ⟨91, "EPROTOTYPE", "Protocol wrong type for socket"⟩,
  ⟨34, "ERANGE", "Result too large"⟩,
  ⟨30, "EROFS", "Read-only file system"⟩,
  ⟨29, "ESPIPE", "Invalid seek"⟩,
  ⟨3, "ESRCH", "No such process"⟩,
  ⟨110, "ETIMEDOUT", "Connection timed out"⟩,
  ⟨26, "ETXTBSY", "Text file busy"⟩,
  ⟨11, "EWOULDBLOCK", "Operation would block"⟩,
  ⟨18, "EXDEV", "Cross-device link"⟩,
  ⟨116, "ESTALE", "Reserved"⟩,
  ⟨122, "EDQUOT", "Reserved"⟩,
  ⟨72, "EMULTIHOP", "Reserved"⟩,
  ⟨61, "ENODATA", "No message is available on the STREAM head read queue"⟩,
  ⟨67, "ENOLINK", "Reserved"⟩,
  ⟨63, "ENOSR", "No STREAM resources"⟩,
  ⟨60, "ENOSTR", "Not a STREAM"⟩,
  ⟨62, "ETIME", "Stream ioctl() timeout"⟩]

/-- The entry of a known code. -/
def entry? (e : Errno) : Option Entry :=
  table.find? fun entry => entry.code = e.code

/-- The symbolic name. -/
def name (e : Errno) : String :=
  (e.entry?.map Entry.name).getD "Unknown errno"

/-- The long description. -/
def description (e : Errno) : String :=
  (e.entry?.map Entry.description).getD "Unknown error"

/-- Name and description. -/
def display (e : Errno) : String :=
  s!"{e.name} ({e.description})"

/-- The messages of the host library for the codes from 1, with gaps where a code has none. -/
def hostMessages : List String := [
  "Operation not permitted",
  "No such file or directory",
  "No such process",
  "Interrupted system call",
  "Input/output error",
  "No such device or address",
  "Argument list too long",
  "Exec format error",
  "Bad file descriptor",
  "No child processes",
  "Resource temporarily unavailable",
  "Cannot allocate memory",
  "Permission denied",
  "Bad address",
  "Block device required",
  "Device or resource busy",
  "File exists",
  "Invalid cross-device link",
  "No such device",
  "Not a directory",
  "Is a directory",
  "Invalid argument",
  "Too many open files in system",
  "Too many open files",
  "Inappropriate ioctl for device",
  "Text file busy",
  "File too large",
  "No space left on device",
  "Illegal seek",
  "Read-only file system",
  "Too many links",
  "Broken pipe",
  "Numerical argument out of domain",
  "Numerical result out of range",
  "Resource deadlock avoided",
  "File name too long",
  "No locks available",
  "Function not implemented",
  "Directory not empty",
  "Too many levels of symbolic links",
  "",
  "No message of desired type",
  "Identifier removed",
  "Channel number out of range",
  "Level 2 not synchronized",
  "Level 3 halted",
  "Level 3 reset",
  "Link number out of range",
  "Protocol driver not attached",
  "No CSI structure available",
  "Level 2 halted",
  "Invalid exchange",
  "Invalid request descriptor",
  "Exchange full",
  "No anode",
  "Invalid request code",
  "Invalid slot",
  "",
  "Bad font file format",
  "Device not a stream",
  "No data available",
  "Timer expired",
  "Out of streams resources",
  "Machine is not on the network",
  "Package not installed",
  "Object is remote",
  "Link has been severed",
  "Advertise error",
  "Srmount error",
  "Communication error on send",
  "Protocol error",
  "Multihop attempted",
  "RFS specific error",
  "Bad message",
  "Value too large for defined data type",
  "Name not unique on network",
  "File descriptor in bad state",
  "Remote address changed",
  "Can not access a needed shared library",
  "Accessing a corrupted shared library",
  ".lib section in a.out corrupted",
  "Attempting to link in too many shared libraries",
  "Cannot exec a shared library directly",
  "Invalid or incomplete multibyte or wide character",
  "Interrupted system call should be restarted",
  "Streams pipe error",
  "Too many users",
  "Socket operation on non-socket",
  "Destination address required",
  "Message too long",
  "Protocol wrong type for socket",
  "Protocol not available",
  "Protocol not supported",
  "Socket type not supported",
  "Operation not supported",
  "Protocol family not supported",
  "Address family not supported by protocol",
  "Address already in use",
  "Cannot assign requested address",
  "Network is down",
  "Network is unreachable",
  "Network dropped connection on reset",
  "Software caused connection abort",
  "Connection reset by peer",
  "No buffer space available",
  "Transport endpoint is already connected",
  "Transport endpoint is not connected",
  "Cannot send after transport endpoint shutdown",
  "Too many references: cannot splice",
  "Connection timed out",
  "Connection refused",
  "Host is down",
  "No route to host",
  "Operation already in progress",
  "Operation now in progress",
  "Stale file handle",
  "Structure needs cleaning",
  "Not a XENIX named type file",
  "No XENIX semaphores available",
  "Is a named type file",
  "Remote I/O error",
  "Disk quota exceeded",
  "No medium found",
  "Wrong medium type",
  "Operation canceled",
  "Required key not available",
  "Key has expired",
  "Key has been revoked",
  "Key was rejected by service",
  "Owner died",
  "State not recoverable",
  "Operation not possible due to RF-kill",
  "Memory page has hardware error"]

/-- The message of the host library. -/
def hostMessage (e : Errno) : String :=
  match e.code with
  | .ofNat 0 => "Success"
  | .ofNat (n + 1) =>
    match hostMessages[n]? with
    | none | some "" => s!"Unknown error {e.code}"
    | some text => text
  | .negSucc _ => s!"Unknown error {e.code}"

/-- The code `EPERM`. -/
def notPermitted : Errno := ⟨1⟩

/-- The code `ENOENT`. -/
def noEntry : Errno := ⟨2⟩

/-- The code `ESRCH`. -/
def noProcess : Errno := ⟨3⟩

/-- The code `EBADF`. -/
def badDescriptor : Errno := ⟨9⟩

/-- The code `ENOMEM`. -/
def noMemory : Errno := ⟨12⟩

/-- The code `EEXIST`. -/
def alreadyMapped : Errno := ⟨17⟩

/-- The code `EINVAL`. -/
def invalid : Errno := ⟨22⟩

/-- The code `EOVERFLOW`. -/
def overflow : Errno := ⟨75⟩

end Errno

/-- A failed host call: with a code, or without one. -/
inductive HostError
  | code (errno : Errno)
  | bare
  deriving DecidableEq, Repr

namespace HostError

/-- The code of a failure; a failure without one counts as code zero. -/
def errno : HostError → Errno
  | code e => e
  | bare => ⟨0⟩

/-- The host library's message and the code. -/
def display : HostError → String
  | code e => s!"{e.hostMessage} (os error {e.code})"
  | bare => "no errno"

end HostError

end HostServices
