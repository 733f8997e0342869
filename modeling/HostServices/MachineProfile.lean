/-!
# Machine profiles

Which machines count as servers: two processors, or two packages of them when several share one,
and about two GiB of memory.
-/

namespace HostServices

/-- What is known about a machine. -/
structure MachineProfile where
  processors : UInt64
  memory : UInt64
  /-- The number of logical processors that share a package. -/
  perPackage : UInt64

/-- Settings that decide without a look at the machine. -/
structure ServerPolicy where
  never : Bool := false
  always : Bool := false

namespace MachineProfile

/-- Two GiB, without what a host keeps back for itself. -/
def serverMemory : UInt64 := 2048 * 1024 * 1024 - 256 * 1024 * 1024

/-- There are two processors that do not share a package. -/
def hasTwoPackages (m : MachineProfile) : Bool :=
  m.perPackage ≤ 1 || 2 ≤ m.processors / m.perPackage

/-- The machine counts as a server. The policy's refusal comes first. -/
def isServerClass (policy : ServerPolicy) (m : MachineProfile) : Bool :=
  if policy.never then false
  else if policy.always then true
  else 2 ≤ m.processors && serverMemory ≤ m.memory && m.hasTwoPackages

end MachineProfile

end HostServices
