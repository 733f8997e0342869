/-!
# Sets of numbers by their bounds

A set of numbers is given by the increasing list of the places where membership changes: the first
bound opens the first range, the second one closes it, and so on.
-/

namespace HostServices.Text

/-- The number lies behind an odd count of bounds. -/
def within : List Nat → Nat → Bool
  | [], _ => false
  | b :: bs, n => if n < b then false else !within bs n

theorem within_nil (n : Nat) : within [] n = false := rfl

theorem within_of_lt {b n : Nat} (bs : List Nat) (h : n < b) : within (b :: bs) n = false := by
  simp [within, h]

theorem within_of_le {b n : Nat} (bs : List Nat) (h : b ≤ n) :
    within (b :: bs) n = !within bs n := by
  simp [within, Nat.not_lt.2 h]

/-- One range holds what lies between its bounds. -/
theorem within_range (lo hi n : Nat) : within [lo, hi] n = (lo ≤ n && n < hi) := by
  rcases Nat.lt_or_ge n lo with hlo | hlo
  · rw [within_of_lt _ hlo]
    simp [Nat.not_le.2 hlo]
  · rw [within_of_le _ hlo]
    rcases Nat.lt_or_ge n hi with hhi | hhi
    · rw [within_of_lt _ hhi]
      simp [hlo, hhi]
    · rw [within_of_le _ hhi, within_nil]
      simp [Nat.not_lt.2 hhi]

end HostServices.Text
