/-!
# Signal names
-/

namespace HostServices.Signal

/-- The names of the signals from one on; a signal without a name has an empty one. -/
def names : List String :=
  ["SIGHUP", "SIGINT", "SIGQUIT", "SIGILL", "SIGTRAP", "SIGABRT", "SIGBUS", "SIGFPE", "SIGKILL",
   "SIGUSR1", "SIGSEGV", "SIGUSR2", "SIGPIPE", "SIGALRM", "SIGTERM", "", "SIGCHLD", "SIGCONT",
   "SIGSTOP", "SIGTSTP", "SIGTTIN", "SIGTTOU", "SIGURG", "SIGXCPU", "SIGXFSZ", "SIGVTALRM",
   "SIGPROF", "SIGWINCH", "SIGIO", "", "SIGSYS"]

/-- The name of a signal, or its number. -/
def name (sig : Int) : String :=
  match sig with
  | .ofNat (n + 1) =>
    match names[n]? with
    | none | some "" => s!"SIG{sig}"
    | some text => text
  | _ => s!"SIG{sig}"

end HostServices.Signal
