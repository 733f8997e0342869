import HostServices.MemoryHost

/-!
# Pausing and sleeping

A pause creates a file and waits until someone deletes it, looking again after each interval. A
sleep is cut into slices of less than a second.
-/

namespace HostServices.Pause

/-- The pause file of a process. -/
def defaultFile (process : String) : String :=
  s!"./vm.paused.{process}"

/-- How a pause went: whether the file was created, how often the process slept, and what it wrote
to its error stream. -/
structure Course where
  created : Bool
  sleeps : Nat
  notice : String

/-- How many looks see the file before the first that does not. -/
def looks (present : List Bool) : Nat :=
  (present.takeWhile id).length

/-- A pause, given how the creation of the file went and what each look at it saw. -/
def run {σ : Type} (file : String) (creation : HostResult Unit) (present : List Bool) :
    Op σ Course := do
  match creation with
  | .error e =>
    Op.report .debug .thread "cannot create pause file"
      [("path", .shown file), ("error", .shown e.display)]
    return ⟨false, 0, s!"Could not open pause file '{file}', continuing immediately.\n"⟩
  | .ok () =>
    Op.report .info .thread "paused; delete the file to continue" [("path", .shown file)]
    return ⟨true, looks present, ""⟩

/-- The longest slice of a sleep, in milliseconds. -/
def longestSlice : Nat := 999

/-- The slices of a sleep. -/
def slices (millis : Nat) : List Nat :=
  if longestSlice < millis then longestSlice :: slices (millis - longestSlice) else [millis]
termination_by millis
decreasing_by
  have : 0 < longestSlice := by decide
  omega

theorem sum_slices (millis : Nat) : (slices millis).foldr (· + ·) 0 = millis := by
  induction millis using slices.induct with
  | case1 m h ih => rw [slices, if_pos h, List.foldr_cons, ih]; omega
  | case2 m h => rw [slices, if_neg h]; simp

end HostServices.Pause
