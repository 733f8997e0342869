import HostServices.Heap.EarlyBlocks
import HostServices.Proofs.AddressMap

/-!
# The set of early blocks

The number of blocks only saves a look at the set: a table contains what its set contains
(`contains_eq`), and edits do to it what they do to sets.
-/

namespace HostServices.EarlyBlocks

variable {t : EarlyBlocks} {p q : UInt64}

theorem members_eq_empty (h : t.size = 0) : t.members = .empty :=
  AddressMap.ext (List.eq_nil_of_length_eq_zero (t.size_eq.symm.trans h))

theorem contains_eq (t : EarlyBlocks) (p : UInt64) : t.contains p = t.members.contains p := by
  by_cases h : t.size = 0
  · rw [members_eq_empty h, contains, h]
    rfl
  · rw [contains, bne_iff_ne.2 h, Bool.true_and]

theorem members_erase (t : EarlyBlocks) (p : UInt64) : (t.erase p).members = t.members.erase p := by
  unfold erase
  split
  case isTrue h =>
    rw [members_eq_empty h]
    rfl
  case isFalse => rfl

theorem contains_insert : (t.insert q).contains p = true ↔ p = q ∨ t.contains p = true := by
  rw [contains_eq, contains_eq, insert]
  split
  case isTrue h => exact ⟨.inr, fun hp => hp.elim (fun heq => heq ▸ h) id⟩
  case isFalse => exact AddressMap.contains_insert

theorem contains_erase : (t.erase q).contains p = true ↔ p ≠ q ∧ t.contains p = true := by
  rw [contains_eq, contains_eq, members_erase]
  exact AddressMap.contains_erase

/-- The number is that of the addresses that the table contains. -/
theorem size_eq_length {ps : List UInt64} (hps : ps.Nodup)
    (h : ∀ p, t.contains p = true ↔ p ∈ ps) : t.size = ps.length := by
  rw [t.size_eq]
  exact AddressMap.size_eq_length hps fun p => (contains_eq t p) ▸ h p

end HostServices.EarlyBlocks
