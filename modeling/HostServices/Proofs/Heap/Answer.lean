import HostServices.Proofs.Heap.Owned
import HostServices.Proofs.Host.Bytes

/-!
# How a heap answers requests

A request for a block either leaves the heap as it was, down to the bytes of every block that its
host owns (`Heap.Untouched`), or the host has a fresh block for it, which is to be recorded
(`LedgerHeap.Fresh`). A resize has turned the marks of the old block dead when it is refused; they
are live again afterwards, and that is all that had changed (`Secured.sameBytes_revived`).
-/

namespace HostServices

open BlockHeader (outerOf innerOf innerOf_outerOf InBand Around)
open Memory (InRange)

/-! ## The bytes around live blocks -/

namespace Secured

variable {B : Blocks} {early : EarlyBlocks} {live : AddressMap LiveBlock} {mem mem' : Memory}
  {p a : UInt64} {b : LiveBlock} (h : Secured B early live) (hb : live.get? p = some b)
include h hb

/-- The length of a live block with what is around it is a word. -/
theorem length_lt : b.size.toNat + 18 < 2 ^ 64 := by
  obtain ⟨n, -, hn⟩ := h.liveOwned hb
  rw [← hn]
  exact n.toNat_lt

/-- What is kept of the host's blocks is kept around live ones. -/
theorem around (hsame : B.SameBytes mem mem') (ha : Around p b.size a) : mem' a = mem a := by
  obtain ⟨n, hn, hlength⟩ := h.liveOwned hb
  exact hsame hn a (by rwa [hlength])

/-- What is in a host block and around a live one is in the host block of the live one. -/
theorem eq_of_around (hB : B.Apart) (ha : Around p b.size a) {q k : UInt64} (hq : B q = some k)
    (ha' : InRange q k.toNat a) : q = outerOf p := by
  obtain ⟨n, hn, hlength⟩ := h.liveOwned hb
  exact hB.eq_of_inRange hq hn ha' (by rwa [hlength])

/-- A live block is not where one from before the ledger is. -/
theorem not_early (hB : B.Apart) : early.contains p = false := by
  rw [Bool.eq_false_iff]
  intro hp
  obtain ⟨k, hk⟩ := Option.ne_none_iff_exists'.1 (h.earlyOwned hp)
  have hself : InRange p k.toNat p := by
    rw [InRange, UInt64.sub_self]
    exact hB.size_pos hk
  have haround : Around p b.size p := by
    rw [Around, InRange, show p - outerOf p = 16 by unfold outerOf BlockHeader.headerSize; grind]
    exact Nat.lt_of_lt_of_le (by decide) (Nat.le_add_left 18 _)
  have hbeside := h.beside hb
  rw [← h.eq_of_around hb hB haround hk hself, hp] at hbeside
  cases hbeside

theorem sameBytes_setMarks (hB : B.Apart) (mem : Memory) (marks : BlockHeader.Marks) :
    (B.drop (outerOf p)).SameBytes mem (BlockHeader.setMarks mem p b.size marks) := by
  obtain ⟨n, hn, hlength⟩ := h.liveOwned hb
  refine hB.sameBytes_of_outside hn fun a ha => BlockHeader.setMarks_of_not_marked fun hmarked => ?_
  refine ha ?_
  rw [hlength]
  exact BlockHeader.around_of_inBand (h.length_lt hb) (BlockHeader.inBand_of_marked hmarked)

/-- The marks of a good block are turned dead, the host leaves all blocks alone, and the marks are
turned live. -/
theorem sameBytes_revived (hB : B.Apart) (hok : Ledger.inspectBlock mem p b = .ok ())
    (hsame : B.SameBytes (BlockHeader.setMarks mem p b.size BlockHeader.dead) mem') :
    B.SameBytes mem (BlockHeader.setMarks mem' p b.size BlockHeader.live) := by
  obtain ⟨n, hn, hlength⟩ := h.liveOwned hb
  refine Blocks.SameBytes.of_drop ?_ hn fun a ha => ?_
  · exact ((h.sameBytes_setMarks hb hB mem _).trans hsame.drop).trans (h.sameBytes_setMarks hb hB _ _)
  · exact BlockHeader.setMarks_live_of_dead hok (hsame hn a ha)

end Secured

/-! ## Refused requests -/

section untouched

variable {σ : Type} [HostAllocator σ] {R : HostContract σ}

/-- The heap is as it was, but for the host's own state and for memory that is in no block. -/
structure Heap.Untouched (R : HostContract σ) (h h' : Heap σ) : Prop where
  eq : h' = h.setMachine h'.base.machine
  owned : R.owned h'.base.machine.host = R.owned h.base.machine.host
  bytes : (R.owned h.base.machine.host).SameBytes h.memory h'.memory

theorem Heap.Untouched.refl : (h : Heap σ) → h.Untouched R h
  | .early _ => ⟨rfl, rfl, .refl ..⟩
  | .ready _ => ⟨rfl, rfl, .refl ..⟩

/-- A request that the host refuses leaves a heap untouched. -/
theorem Heap.Untouched.of_refused {h : Heap σ} {n : UInt64} {m : Machine σ} (hcareful : R.Careful)
    (hs : h.Sound R) (hn : 0 < n) (hcall : HostAllocator.malloc n h.base.machine = (none, m)) :
    h.Untouched R (h.setMachine m) := by
  have howned := (R.of_malloc hs.valid rfl hn hcall).2
  have hsame := hcareful.malloc hs.valid hn
  rw [hcall] at hsame
  cases h <;> exact ⟨rfl, howned, hsame⟩

end untouched

namespace LedgerHeap

variable {σ : Type} {B : Blocks} {h : LedgerHeap σ} {p n outerSize : UInt64} {b : LiveBlock}

/-- A fresh host block beside the blocks `B`, and the heap that is to record it. -/
structure Fresh (B : Blocks) (h : LedgerHeap σ) (outer outerSize n : UInt64) : Prop where
  enabled : h.ledger.enabled = true
  secured : Secured B h.early.blocks h.ledger.live
  fresh : B outer = none
  apart : (B.take outer outerSize).Apart
  length : outerSize.toNat = n.toNat + 18

variable [HostAllocator σ] {R : HostContract σ}

/-- The host has a fresh block for the live one at `p`, with those of the user's bytes in it that
there is room for. The marks of the old block are dead by then. -/
structure Moved (R : HostContract σ) (h : LedgerHeap σ) (p : UInt64) (b : LiveBlock) (m : Machine σ)
    (outer outerSize n : UInt64) : Prop where
  fresh : Fresh ((R.owned h.early.machine.host).drop (outerOf p)) ((h.retire p b).setMachine m) outer
    outerSize n
  others : ((R.owned h.early.machine.host).drop (outerOf p)).SameBytes h.memory m.memory
  kept : m.memory.read (innerOf outer) (Word.min b.size n).toNat =
    (h.takenOut p b).memory.read p (Word.min b.size n).toNat

/-- The bytes that are compared are the same. -/
theorem Moved.keptHash {m : Machine σ} {outer expected : UInt64} (hm : Moved R h p b m outer outerSize n)
    (hexpected : (h.takenOut p b).keptHash p (Word.min b.size n) = some expected) :
    checksum (m.memory.read (innerOf outer) (Word.min b.size n).toNat) = expected := by
  unfold LedgerHeap.keptHash at hexpected
  split at hexpected
  · rw [hm.kept]
    exact Option.some.inj hexpected
  · cases hexpected

variable (hcareful : R.Careful) (hs : Heap.Sound R (.ready h))
include hcareful hs

theorem malloc_cases (n : UInt64) (c : Category) (origin : Origin) :
    Heap.Untouched R (.ready h) (.ready ((malloc n c origin).run h).state) ∧
        ((malloc n c origin).run h).result = .ok none ∨
      ∃ outer outerSize m,
        Fresh (R.owned h.early.machine.host) (h.setMachine m) outer outerSize (Word.max n 1) ∧
          (R.owned h.early.machine.host).SameBytes h.memory m.memory ∧
          (malloc n c origin).run h =
            (recordGranted outer (Word.max n 1) c origin).run (h.setMachine m) := by
  cases malloc_allocates n c origin h with
  | unasked hstate hresult =>
    rw [hstate]
    exact .inl ⟨.refl _, hresult⟩
  | refused hsize hcall hrun =>
    rw [hrun]
    exact .inl ⟨.of_refused hcareful hs (Word.pos_of_add? hsize (Word.max_one_pos n)) hcall, rfl⟩
  | @granted outerSize outer m hlimit hsize hcall hrun =>
    have hpos := Word.pos_of_add? hsize (Word.max_one_pos n)
    obtain ⟨hvalid', houter, howned⟩ := R.of_malloc hs.valid rfl hpos hcall
    have hB := R.apart hvalid'
    rw [howned] at hB
    have hsame := hcareful.malloc (m := h.early.machine) hs.valid hpos
    rw [hcall] at hsame
    exact .inr ⟨outer, outerSize, m, ⟨hs.enabled _ rfl, hs.secured, houter, hB,
      Ledger.toNat_of_overhead (hs.enabled _ rfl) hsize⟩, hsame, hrun⟩

section resize

variable (hb : h.ledger.live.get? p = some b) (hok : Ledger.inspectBlock h.memory p b = .ok ())
include hb hok

omit hcareful in
/-- A block that is put back after the host left all blocks alone. -/
theorem revived_untouched {m : Machine σ}
    (howned : R.owned m.host = R.owned h.early.machine.host)
    (hsame : (R.owned h.early.machine.host).SameBytes (h.takenOut p b).memory m.memory) :
    Heap.Untouched R (.ready h) (.ready (((h.takenOut p b).setMachine m).revived ⟨p, some b⟩)) := by
  rw [revived_takenOut hb]
  exact ⟨rfl, howned, hs.secured.sameBytes_revived hb (R.apart hs.valid) hok hsame⟩

variable (hn : 0 < n) (hsize : Word.add? n h.ledger.overhead = some outerSize)
include hn hsize

omit hok in
/-- A block that the host moves takes its user's bytes along, next to the place for the header. -/
theorem moved_of_realloc {outer : UInt64} {m : Machine σ}
    (hcall : HostAllocator.realloc (outerOf p) outerSize (h.takenOut p b).early.machine =
      (some outer, m)) : Moved R h p b m outer outerSize n := by
  have henabled : h.ledger.enabled = true := hs.enabled _ rfl
  have hsecured : Secured (R.owned h.early.machine.host) h.early.blocks h.ledger.live := hs.secured
  obtain ⟨k, hk, hlength⟩ := hsecured.liveOwned hb
  have hlength' : outerSize.toNat = n.toNat + 18 := Ledger.toNat_of_overhead henabled hsize
  have hpos := Word.pos_of_add? hsize hn
  have hvalid : R.Valid (h.takenOut p b).early.machine.host := hs.valid
  obtain ⟨hvalid', houter, howned⟩ :=
    R.of_realloc hvalid rfl (hsecured.live_ne_none hb) hpos hcall
  have hB := R.apart hvalid'
  rw [howned] at hB
  obtain ⟨hsame, hread⟩ := hcareful.resized hvalid hk hpos hcall
  refine ⟨⟨henabled, hsecured.release hb, houter, hB, hlength'⟩,
    (hsecured.sameBytes_setMarks hb (R.apart hs.valid) _ _).trans hsame, ?_⟩
  have hkept : 16 + (Word.min b.size n).toNat ≤ min k.toNat outerSize.toNat := by
    rw [Word.toNat_min]
    omega
  have hnew := m.memory.read_part outer hkept
  have hold := (h.takenOut p b).memory.read_part (outerOf p) hkept
  rw [show outerOf p + UInt64.ofNat 16 = p from innerOf_outerOf p] at hold
  rw [hread] at hnew
  exact hnew.trans hold.symm

/-- A resize of a good block is refused, or the host has moved the block. -/
theorem resizeRemoved_cases (origin : Origin) :
    Heap.Untouched R (.ready h)
          (.ready ((resizeRemoved ⟨p, some b⟩ n outerSize b.category origin).run (h.takenOut p b)).state) ∧
        ((resizeRemoved ⟨p, some b⟩ n outerSize b.category origin).run (h.takenOut p b)).result =
          .ok none ∨
      ∃ outer m, Moved R h p b m outer outerSize n ∧
        (resizeRemoved ⟨p, some b⟩ n outerSize b.category origin).run (h.takenOut p b) =
          (recordResized ((h.takenOut p b).keptHash p (Word.min b.size n)) p b.size outer n
            b.category origin).run ((h.retire p b).setMachine m) := by
  have houterOf : h.ledger.outerOf p = outerOf p := if_pos (hs.enabled _ rfl)
  cases resizeRemoved_resizes p b n outerSize b.category origin h with
  | unasked hstate hresult =>
    rw [hstate]
    exact .inl ⟨revived_untouched (m := (h.takenOut p b).early.machine) hs hb hok rfl (.refl ..),
      hresult⟩
  | refused hcall hrun =>
    rw [houterOf] at hcall
    rw [hrun]
    obtain ⟨k, hk, -⟩ := hs.secured.liveOwned hb
    have hvalid : R.Valid (h.takenOut p b).early.machine.host := hs.valid
    have hpos := Word.pos_of_add? hsize hn
    have howned := (R.of_realloc hvalid rfl (hs.secured.live_ne_none hb) hpos hcall).2
    have hsame := hcareful.unresized hvalid hk hpos hcall
    exact .inl ⟨revived_untouched hs hb hok howned hsame, rfl⟩
  | @granted outer m hlimit hcall hrun =>
    rw [houterOf] at hcall
    exact .inr ⟨outer, m, moved_of_realloc hcareful hs hb hn hsize hcall, hrun⟩

end resize

end LedgerHeap

end HostServices
