import HostServices.Signal.Channel

/-!
# Pending signals

A counter for each signal from zero to the exit signal. The lowest pending signal is taken first,
so that the exit signal comes after all others. The counters are words: 2 ^ 32 deliveries that
nobody took count as none.
-/

namespace HostServices

/-- How often each signal is pending. -/
structure PendingSignals where
  counts : Vector UInt32 66
  deriving DecidableEq

namespace PendingSignals

/-- Nothing is pending. -/
def empty : PendingSignals := ⟨Vector.replicate 66 0⟩

/-- The counter of a signal, if it has one. -/
def slot? (sig : Int) : Option (Fin 66) :=
  if h : 0 ≤ sig ∧ sig < 66 then some ⟨sig.toNat, by omega⟩ else none

/-- How often a signal is pending. -/
def pending (p : PendingSignals) (sig : Int) : UInt32 :=
  (slot? sig).elim 0 p.counts.get

/-- Count one more delivery of a signal; a signal without a counter is ignored. -/
def mark (p : PendingSignals) (sig : Int) : PendingSignals :=
  match slot? sig with
  | some i => ⟨p.counts.set i (p.counts.get i + 1)⟩
  | none => p

/-- The lowest pending signal. -/
def lowest? (p : PendingSignals) : Option (Fin 66) :=
  (List.finRange 66).find? fun i => p.counts.get i != 0

/-- Take the lowest pending signal. -/
def take (p : PendingSignals) : Option Int × PendingSignals :=
  match p.lowest? with
  | some i => (some i.val, ⟨p.counts.set i (p.counts.get i - 1)⟩)
  | none => (none, p)

/-- Count a delivery, and warn about a signal without a counter. -/
def notify (sig : Int) : Op PendingSignals Unit :=
  match slot? sig with
  | some _ => modify (·.mark sig)
  | none =>
    Op.report .warn .signal "signal number out of range, dropped" [("sig", .number sig)]

/-- All pending signals with their counts, lowest first. -/
def toList (p : PendingSignals) : List (Int × UInt32) :=
  (List.finRange 66).filterMap fun i =>
    if p.counts.get i = 0 then none else some (i.val, p.counts.get i)

/-- The counters as a channel. -/
def channel : SignalChannel PendingSignals where
  take := take
  notify := notify

end PendingSignals

end HostServices
