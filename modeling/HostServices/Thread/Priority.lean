import HostServices.MemoryHost
import HostServices.ServiceError
import HostServices.Thread.Kind

/-!
# Thread priorities

Levels from one to eleven and their values on a host scale, which may run in either direction. The
direction of a table is taken from its ends, and the levels between them have to follow it.
-/

namespace HostServices

/-- A level. The highest is for concurrent collectors only. -/
structure ThreadPriority where
  level : Nat
  positive : 1 ≤ level
  le_critical : level ≤ 11
  deriving DecidableEq

namespace ThreadPriority

/-- The lowest level. -/
def lowest : ThreadPriority := ⟨1, by decide, by decide⟩

/-- The level of the runtime's own threads, one below the highest. -/
def nearHighest : ThreadPriority := ⟨9, by decide, by decide⟩

/-- The highest level of ordinary threads. -/
def highest : ThreadPriority := ⟨10, by decide, by decide⟩

/-- The level above all ordinary ones. -/
def critical : ThreadPriority := ⟨11, by decide, by decide⟩

/-- The level with a number. -/
def ofLevel? (n : Int) : Option ThreadPriority :=
  if h : 1 ≤ n ∧ n ≤ 11 then some ⟨n.toNat, by omega, by omega⟩ else none

end ThreadPriority

/-- A thread of the host and what it is for. -/
structure ThreadRef where
  id : Int
  kind : ThreadKind
  deriving DecidableEq, Repr

/-- The host calls on thread priorities. -/
class ThreadHost (π : Type) where
  setPriority (thread priority : Int) : Op π (HostResult Unit)
  getPriority (thread : Int) : Op π (HostResult Int)
  /-- The calling thread. -/
  current : π → Int

/-- The host value of each level, with an unused entry in front, and whether higher levels have
larger values. -/
structure PriorityMap where
  table : Vector Int 12
  ascending : Bool
  deriving DecidableEq

namespace PriorityMap

/-- Two neighbours of a table follow its direction. -/
def inOrder (ascending : Bool) (here next : Int) : Bool :=
  if ascending then here ≤ next else next ≤ here

/-- The text for neighbours out of order. -/
def disorder (ascending : Bool) (p : Nat) (here next : Int) : String :=
  let direction := if ascending then "ascending" else "descending"
  s!"entry {p} ({here}) and entry {p + 1} ({next}) break the {direction} order"

/-- The first neighbours out of order among levels one to ten. -/
def firstDisorder (table : Vector Int 12) (ascending : Bool) : Option (Fin 12) :=
  (List.finRange 12).find? fun p =>
    1 ≤ p.val && p.val < 10 && !inOrder ascending table[p] (table[p.val + 1]?.getD 0)

/-- A table whose levels one to ten follow its direction. -/
def ofTable (table : Vector Int 12) : Except ServiceError PriorityMap :=
  let ascending := decide (table[1] < table[10])
  match firstDisorder table ascending with
  | some p =>
    .error (.priorityTable (disorder ascending p table[p] (table[p.val + 1]?.getD 0)))
  | none => .ok ⟨table, ascending⟩

/-- The niceness of each level; a higher level has a lower one. -/
def niceness : PriorityMap where
  table := #v[19, 4, 3, 2, 1, 0, -1, -2, -3, -4, -5, -5]
  ascending := false

/-- The host value of a level. -/
def toNative (m : PriorityMap) (p : ThreadPriority) : Int :=
  m.table.get ⟨p.level, Nat.lt_succ_of_le p.le_critical⟩

/-- A host value does not reach a level. -/
def exceeds (m : PriorityMap) (p : ThreadPriority) (native : Int) : Bool :=
  if m.ascending then native < m.toNative p else m.toNative p < native

/-- The first level from `n + 1` down that `native` reaches; the lowest is reached by all. -/
def scan (m : PriorityMap) (native : Int) : (n : Nat) → n ≤ 9 → ThreadPriority
  | 0, _ => .lowest
  | n + 1, h =>
    let p : ThreadPriority := ⟨n + 2, by omega, by omega⟩
    if m.exceeds p native then scan m native n (by omega) else p

/-- The highest ordinary level that a host value reaches. -/
def fromNative (m : PriorityMap) (native : Int) : ThreadPriority :=
  m.scan native 9 (Nat.le_refl 9)

/-- The level may be set for a kind of thread. -/
def allows (kind : ThreadKind) (p : ThreadPriority) : Bool :=
  p.level ≤ 10 || p == .critical && kind == .concurrentGc

variable {π : Type} [ThreadHost π]

/-- Set the level of a thread. -/
def setPriority (m : PriorityMap) (thread : ThreadRef) (p : ThreadPriority) :
    Op π (Except ServiceError Unit) := do
  if !allows thread.kind p then
    return .error (.invalidPriority p.level thread.kind.name)
  let native := m.toNative p
  match ← ThreadHost.setPriority thread.id native with
  | .ok () => return .ok ()
  | .error e =>
    Op.report .warn .thread "failed to set thread priority"
      [("thread", .number thread.id), ("priority", .shown (toString p.level)),
       ("native", .number native), ("error", .shown e.display)]
    return .error (.platform "setpriority" e.errno)

/-- Raise the calling thread of the runtime to its level. -/
def raiseOwn (m : PriorityMap) : Op π (Except ServiceError Unit) := do
  m.setPriority ⟨ThreadHost.current (← get), .vmInternal⟩ .nearHighest

/-- The level of a thread. -/
def getPriority (m : PriorityMap) (thread : ThreadRef) :
    Op π (Except ServiceError ThreadPriority) := do
  match ← ThreadHost.getPriority thread.id with
  | .ok native => return .ok (m.fromNative native)
  | .error e =>
    Op.report .warn .thread "failed to get thread priority"
      [("thread", .number thread.id), ("error", .shown e.display)]
    return .error (.platform "getpriority" e.errno)

end PriorityMap

end HostServices
