import HostServices.Proofs.Heap.Balance
import HostServices.Proofs.Heap.Refusal
import HostServices.Proofs.Ledger.Lookup

/-!
# What an address of a heap is

The host blocks of live blocks are apart, as blocks of the host are (`Secured.separate`), so a heap
tells each byte that it has handed out (`Heap.Reachable.describe_handed_out`).
-/

namespace HostServices

open BlockHeader (outerOf)

/-- Live blocks are apart, with what is around them. -/
theorem Secured.separate {B : Blocks} {early : EarlyBlocks} {l : Ledger}
    (h : Secured B early l.live) (hB : B.Apart) : l.Separate where
  placed e he := by
    obtain ⟨k, hk, hlength, hplace⟩ := h.place hB (AddressMap.get?_of_mem he)
    have hfits := hB.fits hk
    omega
  apart e e' he he' hne := by
    obtain ⟨k, hk, hlength, hplace⟩ := h.place hB (AddressMap.get?_of_mem he)
    obtain ⟨k', hk', hlength', hplace'⟩ := h.place hB (AddressMap.get?_of_mem he')
    have houter : outerOf e.1 ≠ outerOf e'.1 := fun heq =>
      hne (AddressMap.eq_of_mem he he' (BlockHeader.outerOf_inj heq))
    have hbeside := hB.beside hk hk' houter
    rw [hostRange, hostRange, Set.Ico_disjoint_Ico]
    omega

namespace Heap

variable {σ : Type} [HostAllocator σ] {R : HostContract σ} {h : Heap σ} {l : Ledger}

theorem Reachable.separate (hreach : h.Reachable R) (hl : h.ledger? = some l) : l.Separate := by
  cases h with
  | early e => cases hl
  | ready h =>
    cases hl
    exact hreach.sound.secured.separate (R.apart hreach.sound.valid)

/-- Whatever a heap was asked for, each byte of a live block is described with its place in that. -/
theorem Reachable.describe_handed_out (hreach : h.Reachable R) (hl : h.ledger? = some l)
    {p : UInt64} {b : LiveBlock} (hlive : l.live.get? p = some b) {i : UInt64} (hi : i < b.size) :
    l.describe (p + i) = some (insideText (p + i) (p, b)) := by
  have hseparate := hreach.separate hl
  have hmem : (p, b) ∈ l.liveBlocks := AddressMap.get?_eq_some_iff.1 hlive
  have hfits : p.toNat + b.size.toNat + 2 ≤ 2 ^ 64 := (hseparate.placed _ hmem).2
  have hlt := UInt64.lt_iff_toNat_lt.1 hi
  refine (Ledger.describe_eq_insideText_iff hseparate hmem).2 ?_
  rw [userRange, Set.mem_Ico, Word.toNat_add_of_lt (by omega)]
  exact ⟨Nat.le_add_right .., Nat.add_lt_add_left hlt _⟩

end Heap

end HostServices
