import HostServices.Checked
import HostServices.Proofs.Word

/-!
# Checks that pass

When a checked sum or difference is a word, and what a result says of the steps before it.
-/

namespace HostServices.Checked

variable {a b c : UInt64}

theorem add_of_lt (h : a.toNat + b.toNat < 2 ^ 64) : add a b = .ok (a + b) := by
  rw [add, Word.add?_of_lt h]
  rfl

theorem toNat_of_add (h : add a b = .ok c) : c.toNat = a.toNat + b.toNat := by
  unfold add at h
  cases hsum : Word.add? a b with
  | none =>
    rw [hsum] at h
    cases h
  | some sum =>
    rw [hsum] at h
    cases h
    exact (Word.toNat_of_add? hsum).1

theorem add_eq_ok_iff : add a b = .ok c ↔ c.toNat = a.toNat + b.toNat := by
  refine ⟨toNat_of_add, fun h => ?_⟩
  have hlt : a.toNat + b.toNat < 2 ^ 64 := h ▸ c.toNat_lt
  rw [add_of_lt hlt, ← UInt64.toNat_inj.1 (h.trans (Word.toNat_add_of_lt hlt).symm)]

theorem sub_of_le (h : b.toNat ≤ a.toNat) : sub a b = .ok (a - b) := by
  rw [sub, Word.sub?, if_pos (UInt64.le_iff_toNat_le.2 h)]
  rfl

theorem bind_eq_ok_iff {ε α β : Type} {x : Except ε α} {f : α → Except ε β} {b : β} :
    x >>= f = .ok b ↔ ∃ a, x = .ok a ∧ f a = .ok b := by
  cases x <;> simp [bind, Except.bind]

end HostServices.Checked
