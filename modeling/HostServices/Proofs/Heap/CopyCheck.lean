import HostServices.Proofs.Heap.Counted
import HostServices.Proofs.Host.Fresh

/-!
# The copy check

The hash takes in one byte after another. Each step can be undone, as its factor is odd, so texts that
differ in one byte have different hashes (`checksum_ne`). The bytes that a resize has to keep are
hashed before the host is asked and after the new header is written, and neither the marks of the
dead block nor the new header and footer are on them. So one byte that the host has changed is
noticed, whatever it was and has become (`Heap.copy_check_exact`).
-/

namespace HostServices

open BlockHeader (outerOf innerOf)

/-! ## The hash -/

/-- The hash with one more byte. -/
def absorb (hash : UInt64) (b : UInt8) : UInt64 :=
  (hash ^^^ b.toUInt64) * 0x100000001b3

/-- The factor of a step has an inverse. -/
theorem absorb_mul_inverse (hash : UInt64) (b : UInt8) :
    absorb hash b * 0xce965057aff6957b = hash ^^^ b.toUInt64 := by
  have hinverse : (0x100000001b3 : UInt64) * 0xce965057aff6957b = 1 := by decide
  rw [absorb, UInt64.mul_assoc, hinverse, UInt64.mul_one]

theorem absorb_left_inj {hash hash' : UInt64} {b : UInt8} (h : absorb hash b = absorb hash' b) :
    hash = hash' := by
  have hxor := congrArg (· * 0xce965057aff6957b) h
  simp only [absorb_mul_inverse] at hxor
  exact (UInt64.xor_left_inj _).1 hxor

theorem absorb_right_inj {hash : UInt64} {b b' : UInt8} (h : absorb hash b = absorb hash b') :
    b = b' := by
  have hxor := congrArg (· * 0xce965057aff6957b) h
  simp only [absorb_mul_inverse] at hxor
  exact UInt8.toUInt64_inj.1 ((UInt64.xor_right_inj _).1 hxor)

theorem foldl_absorb_inj {hash hash' : UInt64} {bs : List UInt8}
    (h : bs.foldl absorb hash = bs.foldl absorb hash') : hash = hash' := by
  induction bs generalizing hash hash' with
  | nil => exact h
  | cons b bs ih => exact absorb_left_inj (ih h)

/-- Texts that differ in one byte have different hashes. -/
theorem checksum_ne {front back : List UInt8} {x y : UInt8} (hne : x ≠ y) :
    checksum (front ++ x :: back) ≠ checksum (front ++ y :: back) := by
  intro h
  have hfold (z : UInt8) : checksum (front ++ z :: back) =
      back.foldl absorb (absorb (front.foldl absorb 0xcbf29ce484222325) z) :=
    List.foldl_append
  rw [hfold, hfold] at h
  exact hne (absorb_right_inj (foldl_absorb_inj h))

/-! ## The check -/

namespace LedgerHeap

variable {σ : Type} {h : LedgerHeap σ} {t : TrackedMemory} {n outer inner old oldSize expected : UInt64}
  {c : Category} {origin : Origin}

/-- A block whose bytes were lost is recorded and reported, and answered as the policy says. -/
theorem recordResized_lost
    (hstate : ((TrackedMemory.recordMalloc outer n c origin).run h.tracked).state = t)
    (hresult : ((TrackedMemory.recordMalloc outer n c origin).run h.tracked).result = .ok inner)
    (hlost : checksum (t.memory.read inner (Word.min oldSize n).toNat) ≠ expected) :
    ((recordResized (some expected) old oldSize outer n c origin).run h).state.ledger =
        t.ledger.noted ⟨.realloc, old, .reallocCopy (Word.min oldSize n)⟩ ∧
      ((recordResized (some expected) old oldSize outer n c origin).run h).result =
        t.ledger.policy.answer ⟨.realloc, old, .reallocCopy (Word.min oldSize n)⟩ (some inner) := by
  have hrecord : ((onTracked (TrackedMemory.recordMalloc outer n c origin)).run h).result =
      .ok inner := hresult
  obtain ⟨hverify, hverify'⟩ : ((verifyCopy (some expected) old inner (Word.min oldSize n)).run
      (h.setTracked t)).state = _ ∧ _ :=
    verifyCopy_lost hlost
  unfold recordResized
  rw [Op.state_bind_of_ok hrecord, Op.result_bind_of_ok hrecord, onTracked, Op.state_zoom, hstate]
  have hpolicy : (h.setTracked t).ledger.policy = t.ledger.policy := rfl
  rw [hpolicy] at hverify'
  cases hanswer : t.ledger.policy with
  | abort =>
    rw [hanswer] at hverify'
    rw [Op.state_bind_of_error hverify', Op.result_bind_of_error hverify', hverify]
    exact ⟨rfl, rfl⟩
  | keep =>
    rw [hanswer] at hverify'
    obtain ⟨hcatch, hcatch'⟩ := run_catchPointer "realloc" inner
      (((h.setTracked t).noted ⟨.realloc, old, .reallocCopy (Word.min oldSize n)⟩).setMemory
        (((h.setTracked t).noted ⟨.realloc, old, .reallocCopy (Word.min oldSize n)⟩).grownFill inner
          oldSize n))
    rw [Op.state_bind_of_ok hverify', Op.result_bind_of_ok hverify', hverify,
      Op.run_bind_of_run (run_fillGrown inner oldSize n _), Op.state_bind_of_ok hcatch',
      Op.result_bind_of_ok hcatch', hcatch]
    exact ⟨rfl, rfl⟩

end LedgerHeap

/-- A fresh host block is recorded, if its requester can have a marker. -/
theorem Secured.records {B : Blocks} {early : EarlyBlocks} {t : TrackedMemory}
    {outer outerSize n : UInt64} {c : Category} {origin : Origin} {keys : Finset SiteKey}
    (henabled : t.ledger.enabled = true) (hs : Secured B early t.ledger.live)
    (hcounted : t.ledger.Counted)
    (hdetail : t.ledger.level = .detail → t.ledger.Balanced keys ∧ keys.card < 2 ^ 32 ∧
      Ledger.requester origin c ∈ keys)
    (houter : B outer = none) (hB : (B.take outer outerSize).Apart)
    (hsize : Word.add? n t.ledger.overhead = some outerSize) :
    ∃ l marker, ((TrackedMemory.recordMalloc outer n c origin).run t).state =
        TrackedMemory.install { t with ledger := l } outer ⟨n, c, t.ledger.originOf origin, marker⟩ ∧
      l.live = t.ledger.live ∧ l.reports = t.ledger.reports ∧ l.policy = t.ledger.policy ∧
      ((TrackedMemory.recordMalloc outer n c origin).run t).result = .ok (innerOf outer) := by
  have hlength : outerSize.toNat = n.toNat + 18 := Ledger.toNat_of_overhead henabled hsize
  obtain ⟨-, hroom⟩ := hs.room (b := ⟨n, c, origin, 0⟩) houter hB hlength
  have hfits : t.ledger.Fits c (t.ledger.originOf origin) n :=
    ⟨MallocSummary.Tallies.fits hcounted hroom c, fun hlevel =>
      ((hdetail hlevel).1.tallies.sites hlevel).fits hroom _⟩
  have hmarker : t.ledger.HasMarker c (t.ledger.originOf origin) := fun hlevel => by
    obtain ⟨hbalanced, hcard, hmem⟩ := hdetail hlevel
    rw [Ledger.originOf_detail hlevel]
    exact hbalanced.hasMarker hcard (fun _ => hmem) hlevel
  obtain ⟨hstate, hresult⟩ :
      ((TrackedMemory.recordMalloc outer n c origin).run t).state = _ ∧ _ :=
    TrackedMemory.recordMalloc_of_fits henabled hfits hmarker
  refine ⟨_, _, hstate, Ledger.live_charge, ?_, ?_, hresult⟩ <;> rw [Ledger.charge_eq]

section resized

variable {σ : Type} [HostAllocator σ] {R : HostContract σ} {h : LedgerHeap σ}
  {p n outer : UInt64} {b : LiveBlock} {m : Machine σ} {keys : Finset SiteKey}

omit [HostAllocator σ] in
/-- The bytes that a resize keeps are not those that it marks before. -/
theorem LedgerHeap.keptHash_takenOut (hverify : h.ledger.config.verifyReallocCopy = true)
    (hn : b.size.toNat + 18 < 2 ^ 64) :
    (h.takenOut p b).keptHash p (Word.min b.size n) =
      some (checksum (h.memory.read p (min b.size.toNat n.toNat))) := by
  have hread : (h.takenOut p b).memory.read p (min b.size.toNat n.toNat) =
      h.memory.read p (min b.size.toNat n.toNat) :=
    BlockHeader.read_setMarks_user hn (Nat.min_le_left ..)
  have hconfig : (h.takenOut p b).ledger.config.verifyReallocCopy = true := hverify
  rw [keptHash, if_pos hconfig, Word.toNat_min, hread]

/-- A resize of the block `b` at `p` to `n` bytes is granted. It gets as far as the host when the block is
live and intact, its gain is within the limits and its length with the header and the footer is a word;
the host, which is left as `m`, answers the block at `outer`. -/
structure LedgerHeap.Grants (h : LedgerHeap σ) (p : UInt64) (b : LiveBlock) (n outer : UInt64)
    (m : Machine σ) : Prop where
  live : h.ledger.live.get? p = some b
  intact : Ledger.inspectBlock h.memory p b = .ok ()
  within : b.size < n → h.ledger.limitCheck (n - b.size) b.category = .ok ()
  answered : ∃ outerSize, Word.add? n h.ledger.overhead = some outerSize ∧
    HostAllocator.realloc (outerOf p) outerSize (h.takenOut p b).early.machine = (some outer, m)

/-- The bytes to keep were hashed before, and the block is recorded anew. -/
theorem LedgerHeap.Grants.run_reallocTracked (hgrants : h.Grants p b n outer m)
    (henabled : h.ledger.enabled = true) (hverify : h.ledger.config.verifyReallocCopy = true)
    (hn : b.size.toNat + 18 < 2 ^ 64) (origin : Origin) :
    (reallocTracked p n b.category origin).run h =
      (recordResized (some (checksum (h.memory.read p (min b.size.toNat n.toNat)))) p b.size outer n
        b.category origin).run ((h.retire p b).setMachine m) := by
  obtain ⟨hlive, hintact, hlimit, outerSize, hsize, hcall⟩ := hgrants
  rw [reallocTracked_intact henabled hsize hlive (Ledger.inspectForResize_of_ok hintact),
    ← keptHash_takenOut hverify hn]
  exact resizeRemoved_granted (r := ⟨p, some b⟩) hlimit
    ((outerOf_takenOut henabled (p := p) (b := b)).symm ▸ hcall)

section granted

variable (hgrants : h.Grants p b n outer m) (origin : Origin) (hs : Heap.Sound R (.ready h))
  (hcounted : h.ledger.Counted)
  (hdetail : h.ledger.level = .detail → h.ledger.Balanced keys ∧ keys.card < 2 ^ 32 ∧
    Ledger.requester origin b.category ∈ keys)
  (hpos : 0 < n)
include hgrants hs hcounted hdetail hpos

/-- The new block gets its record, and its header and footer are not among the bytes that are
compared. -/
theorem LedgerHeap.Grants.recorded :
    ∃ l marker, ((TrackedMemory.recordMalloc outer n b.category origin).run
        ((h.retire p b).setMachine m).tracked).state =
          TrackedMemory.install ⟨l, m.memory⟩ outer
            ⟨n, b.category, h.ledger.originOf origin, marker⟩ ∧
      ((TrackedMemory.recordMalloc outer n b.category origin).run
        ((h.retire p b).setMachine m).tracked).result = .ok (innerOf outer) ∧
      l.live = h.ledger.live.erase p ∧ l.reports = h.ledger.reports ∧ l.policy = h.ledger.policy ∧
      (TrackedMemory.install ⟨l, m.memory⟩ outer
        ⟨n, b.category, h.ledger.originOf origin, marker⟩).memory.read (innerOf outer)
          (Word.min b.size n).toNat =
        m.memory.read (innerOf outer) (min b.size.toNat n.toNat) := by
  obtain ⟨outerSize, hsize, hcall⟩ := hgrants.answered
  have henabled : h.ledger.enabled = true := hs.enabled _ rfl
  have hsecured : Secured (R.owned h.early.machine.host) h.early.blocks h.ledger.live := hs.secured
  obtain ⟨hvalid', houter, howned⟩ := R.of_realloc (m := (h.takenOut p b).early.machine) hs.valid rfl
    (hsecured.live_ne_none hgrants.live) (Word.pos_of_add? hsize hpos) hcall
  have hB := R.apart hvalid'
  rw [howned] at hB
  have hlength := Ledger.toNat_of_overhead henabled hsize
  obtain ⟨l, marker, hstate, hl, hreports, hpolicy, hresult⟩ :=
    (hsecured.release hgrants.live).records (t := ((h.retire p b).setMachine m).tracked) henabled
      (hcounted.retire hgrants.live)
      (fun hlevel => (hdetail hlevel).imp_left (·.retire hgrants.live)) houter hB hsize
  refine ⟨l, marker, hstate, hresult, hl, hreports, hpolicy, ?_⟩
  rw [Word.toNat_min]
  exact BlockHeader.read_install_user (b := ⟨n, b.category, h.ledger.originOf origin, marker⟩)
    (hlength ▸ outerSize.toNat_lt) (Nat.min_le_right ..)

/-- What a resize comes to that the host has granted: the new block is live in place of the old one,
and what the hashes tell apart is reported. -/
theorem LedgerHeap.Grants.checked (hverify : h.ledger.config.verifyReallocCopy = true) :
    let out := (reallocTracked p n b.category origin).run h
    let found : Corruption := ⟨.realloc, p, .reallocCopy (Word.min b.size n)⟩
    let before := h.memory.read p (min b.size.toNat n.toNat)
    let after := m.memory.read (innerOf outer) (min b.size.toNat n.toNat)
    (∃ marker, out.state.ledger.live = (h.ledger.live.erase p).insert (innerOf outer)
      ⟨n, b.category, h.ledger.originOf origin, marker⟩) ∧
    (checksum after ≠ checksum before → out.state.ledger.reports = h.ledger.reports ++ [found] ∧
      out.result = h.ledger.policy.answer found (some (innerOf outer))) ∧
    (after = before → out.state.ledger.reports = h.ledger.reports ∧
      out.result = .ok (some (innerOf outer))) := by
  intro out found before after
  have hsecured : Secured (R.owned h.early.machine.host) h.early.blocks h.ledger.live := hs.secured
  obtain ⟨l, marker, hstate, hresult, hl, hreports, hpolicy, hread⟩ :=
    hgrants.recorded origin hs hcounted hdetail hpos
  let resized := (recordResized (some (checksum before)) p b.size outer n b.category origin).run
    ((h.retire p b).setMachine m)
  have hrun : out = resized :=
    hgrants.run_reallocTracked (hs.enabled _ rfl) hverify (hsecured.length_lt hgrants.live) origin
  have hrecord (l' : Ledger) (hl' : l'.live = l.live.insert (innerOf outer)
      ⟨n, b.category, h.ledger.originOf origin, marker⟩) :
      ∃ marker, l'.live = (h.ledger.live.erase p).insert (innerOf outer)
        ⟨n, b.category, h.ledger.originOf origin, marker⟩ :=
    ⟨marker, hl ▸ hl'⟩
  -- The code compares hashes, so the cases are theirs; equal bytes are in the first one.
  by_cases hsame : checksum after = checksum before
  · obtain ⟨hleft, hanswer⟩ : resized.state = _ ∧ resized.result = _ :=
      recordResized_of_ok hstate hresult fun _ hsum =>
        (congrArg checksum hread).trans (hsame.trans (Option.some.inj hsum))
    rw [← hrun] at hleft hanswer
    refine ⟨hrecord _ (congrArg (·.ledger.live) hleft), fun hlost => absurd hsame hlost, fun _ =>
      ⟨(congrArg (·.ledger.reports) hleft).trans hreports, hanswer⟩⟩
  · obtain ⟨hleft, hanswer⟩ : resized.state.ledger = _ ∧ resized.result = _ :=
      recordResized_lost hstate hresult fun hsum =>
        hsame ((congrArg checksum hread).symm.trans hsum)
    rw [← hrun] at hleft hanswer
    refine ⟨hrecord _ (congrArg (·.live) hleft), fun _ => ⟨?_, ?_⟩,
      fun hsame' => absurd (congrArg checksum hsame') hsame⟩
    · exact (congrArg (·.reports) hleft).trans (congrArg (· ++ [found]) hreports)
    · exact hanswer.trans
        (congrArg (fun policy : CorruptionPolicy => policy.answer found (some (innerOf outer))) hpolicy)

end granted

end resized

/-- Whatever a heap with the check was asked for before: if the host grants the resize of a live block
but changes one of the bytes that it has to keep, to whatever other value, then just this is reported,
with the number of these bytes, and the new block is live in place of the old one and answered, unless
the policy is to abort. If the host keeps the bytes, nothing is reported. -/
theorem Heap.copy_check_exact {σ : Type} [HostAllocator σ] (R : HostContract σ) {start : Machine σ}
    (hvalid : R.Valid start.host) {calls : List HeapCall}
    (hproper : HeapCall.ProperRun calls (create start)) {h : LedgerHeap σ}
    (hrun : HeapCall.run calls (create start) = .ready h)
    (hverify : h.ledger.config.verifyReallocCopy = true) {p n outer : UInt64} {b : LiveBlock}
    {m : Machine σ} (hgrants : h.Grants p b (Word.max n 1) outer m) (origin : Origin)
    (hcard : h.ledger.level = .detail →
      (HeapCall.requestersOf (calls ++ [.realloc (some p) n b.category origin])).card < 2 ^ 32) :
    let out := (Heap.realloc (some p) n b.category origin).run (.ready h)
    let found : Corruption := ⟨.realloc, p, .reallocCopy (Word.min b.size (Word.max n 1))⟩
    let before := h.memory.read p (min b.size.toNat (Word.max n 1).toNat)
    let after := m.memory.read (innerOf outer) (min b.size.toNat (Word.max n 1).toNat)
    (∃ marker, out.state.live = (h.ledger.live.erase p).insert (innerOf outer)
      ⟨Word.max n 1, b.category, h.ledger.originOf origin, marker⟩) ∧
    (∀ front x y back, before = front ++ x :: back → after = front ++ y :: back → x ≠ y →
      out.state.reports = h.ledger.reports ++ [found] ∧
        out.result = h.ledger.policy.answer found (some (innerOf outer))) ∧
    (after = before → out.state.reports = h.ledger.reports ∧
      out.result = .ok (some (innerOf outer))) := by
  have hs : (HeapCall.run calls (create start)).Sound R := (sound_create hvalid).run hproper
  have hcounted : (HeapCall.run calls (create start)).Counted :=
    (counted_early _).run (sound_create hvalid) hproper
  have hbalanced (hdetail : h.ledger.level = .detail) :
      (HeapCall.run calls (create start)).Balanced
        (HeapCall.requestersOf (calls ++ [.realloc (some p) n b.category origin])) :=
    (balanced_early _).run (sound_create hvalid) (hcard hdetail)
      (fun _ hcall => HeapCall.requesters_subset (List.mem_append_left _ hcall)) hproper
  have hmem : Ledger.requester origin b.category ∈
      HeapCall.requestersOf (calls ++ [.realloc (some p) n b.category origin]) :=
    HeapCall.requesters_subset (List.mem_append_right calls List.mem_cons_self) rfl
  rw [hrun] at hs hcounted hbalanced
  have hsecured : Secured (R.owned h.early.machine.host) h.early.blocks h.ledger.live := hs.secured
  have htracked : (LedgerHeap.realloc (some p) n b.category origin).run h = _ :=
    LedgerHeap.run_realloc_tracked (hs.enabled _ rfl)
      (hsecured.not_early hgrants.live (R.apart hs.valid))
  obtain ⟨hlive, hlost, hkept⟩ := hgrants.checked origin hs (hcounted _ rfl)
    (fun hdetail => ⟨hbalanced hdetail _ rfl, hcard hdetail, hmem⟩) (Word.max_one_pos n) hverify
  rw [← htracked] at hlive hlost hkept
  refine ⟨hlive, fun front x y back hbefore hafter hne => hlost ?_, hkept⟩
  rw [hbefore, hafter]
  exact checksum_ne hne.symm

/-! ## A host that loses a byte -/

/-- An allocator that inverts a byte of each block it resizes. -/
structure Lossy (σ : Type) where
  inner : σ
  /-- The place of the byte in the block. -/
  place : UInt64

namespace Lossy

variable {σ : Type}

/-- The machine without the fault. -/
def enter (m : Machine (Lossy σ)) : Machine σ :=
  ⟨m.host.inner, m.memory⟩

/-- Take over what a call left. -/
def leave (l : Lossy σ) (m : Machine σ) : Machine (Lossy σ) :=
  ⟨{ l with inner := m.host }, m.memory⟩

/-- Invert the byte at `a`. -/
def spoil (a : UInt64) (m : Machine σ) : Machine σ :=
  { m with memory := m.memory.write a #[~~~m.memory a] }

instance [HostAllocator σ] : HostAllocator (Lossy σ) where
  malloc n m :=
    let (p, m') := HostAllocator.malloc n (enter m)
    (p, leave m.host m')
  realloc p n m :=
    match HostAllocator.realloc p n (enter m) with
    | (none, m') => (none, leave m.host m')
    | (some q, m') => (some q, leave m.host (spoil (q + m.host.place) m'))
  free p m := leave m.host (HostAllocator.free p (enter m))

end Lossy

/-- A contract is not about the bytes of the blocks, so it is kept when some are lost. -/
def HostContract.lossy {σ : Type} [HostAllocator σ] (R : HostContract σ) :
    HostContract (Lossy σ) where
  Valid l := R.Valid l.inner
  owned l := R.owned l.inner
  apart h := R.apart h
  malloc {n m} h hn := R.malloc (m := Lossy.enter m) h hn
  realloc {p n k m} h hp hn := by
    have hcall := R.realloc (m := Lossy.enter m) h hp hn
    dsimp only [HostAllocator.realloc]
    split <;> rename_i heq <;> rw [heq] at hcall <;> exact hcall
  free {p k m} h hp := R.free (m := Lossy.enter m) h hp

namespace Heap

/-- A block that is checked when it is copied. -/
def checkedMalloc : List HeapCall :=
  [.install { tracking := .summary, verifyReallocCopy := true } .keep,
    .malloc 4 .gc ⟨⟨"src/boot.rs", 3, 5⟩, .empty⟩]

/-- An allocator without reuse that loses the second of a user's bytes. -/
def lossyMachine : Machine (Lossy FreshAllocator) :=
  ⟨⟨{}, 17⟩, Memory.zero⟩

/-- A text is written to the block. -/
def checkedRun : List HeapCall :=
  checkedMalloc ++ [.overwrite ((HeapCall.run checkedMalloc (create lossyMachine)).memory.write
    0x100000000010 #[104, 111, 115, 116])]

/-- The heap with this block. -/
def checked : Heap (Lossy FreshAllocator) :=
  HeapCall.run checkedRun (create lossyMachine)

theorem copy_check_exact_lossy :
    let b : LiveBlock := ⟨4, .gc, ⟨⟨"src/boot.rs", 3, 5⟩, .empty⟩, 0⟩
    let grow : Op (Heap (Lossy FreshAllocator)) (Option UInt64) :=
      Heap.realloc (some 0x100000000010) 60 .gc ⟨⟨"src/boot.rs", 3, 5⟩, .empty⟩
    FreshAllocator.contract.lossy.Valid lossyMachine.host ∧
      HeapCall.ProperRun checkedRun (create lossyMachine) ∧
      ∃ h m, checked = .ready h ∧ h.ledger.config.verifyReallocCopy = true ∧
        h.Grants 0x100000000010 b 60 0x100000000020 m ∧
        h.memory.read 0x100000000010 4 = [104, 111, 115, 116] ∧
        m.memory.read 0x100000000030 4 = [104, 144, 115, 116] ∧
        ((grow.run (.ready h)).state.live.get? 0x100000000030).isSome ∧
        (grow.run (.ready h)).state.reports =
          h.ledger.reports ++ [⟨.realloc, 0x100000000010, .reallocCopy 4⟩] ∧
        (grow.run (.ready h)).result = .ok (some 0x100000000030) := by
  intro b grow
  have hvalid : FreshAllocator.contract.lossy.Valid lossyMachine.host :=
    FreshAllocator.wellFormed_empty
  have hproper : HeapCall.ProperRun checkedRun (create lossyMachine) :=
    ⟨rfl, trivial, trivial, trivial⟩
  have hlive : checked.live.get? 0x100000000010 = some b := by decide +kernel
  have hledger : checked.ledger?.map (fun l => (l.config.verifyReallocCopy, l.level, l.policy,
      Word.add? 60 l.overhead)) = some (true, .summary, .keep, some 78) := by decide +kernel
  have hlimit : checked.ledger?.map (·.limitCheck (60 - 4) .gc) = some (.ok ()) := rfl
  have hintact : Ledger.inspectBlock checked.memory 0x100000000010 b = .ok () := by decide +kernel
  have htext : checked.memory.read 0x100000000010 4 = [104, 111, 115, 116] := by decide +kernel
  have hanswer : (match checked with
      | .early _ => none
      | .ready h => some (HostAllocator.realloc (outerOf 0x100000000010) 78
          (h.takenOut 0x100000000010 b).early.machine)).map
        (fun (answer : Option UInt64 × Machine (Lossy FreshAllocator)) =>
          (answer.1, answer.2.memory.read 0x100000000030 4)) =
      some (some 0x100000000020, [104, 144, 115, 116]) := by decide +kernel
  obtain ⟨h, hrun⟩ : ∃ h, checked = .ready h := by
    cases hrun : checked with
    | early => rw [hrun] at hledger; cases hledger
    | ready h => exact ⟨h, rfl⟩
  rw [hrun] at hlive hledger hlimit hintact htext hanswer
  obtain ⟨hverify, hlevel, hpolicy, hsize⟩ : h.ledger.config.verifyReallocCopy = true ∧
      h.ledger.level = .summary ∧ h.ledger.policy = .keep ∧
      Word.add? 60 h.ledger.overhead = some 78 := by
    simpa [ledger?] using hledger
  obtain ⟨⟨q, m⟩, hcall, hlost⟩ := Option.map_eq_some_iff.1 hanswer
  obtain ⟨rfl, hlost⟩ := Prod.mk.inj hlost
  have hmax : Word.max 60 1 = 60 := by decide
  have hgrants : h.Grants 0x100000000010 b 60 0x100000000020 m :=
    ⟨hlive, hintact, fun _ => Option.some.inj hlimit, 78, hsize, Option.some.inj hcall⟩
  obtain ⟨⟨marker, hrecord⟩, hreport, -⟩ := copy_check_exact FreshAllocator.contract.lossy hvalid
    hproper hrun hverify (n := 60) (by rwa [hmax]) ⟨⟨"src/boot.rs", 3, 5⟩, .empty⟩
    (fun hdetail => absurd (hlevel.symm.trans hdetail) (by decide))
  obtain ⟨hreport, hresult⟩ := hreport [104] 111 144 [115, 116] htext hlost (by decide)
  rw [hpolicy] at hresult
  refine ⟨hvalid, hproper, h, m, hrun, hverify, hgrants, htext, hlost, ?_, hreport, hresult⟩
  rw [hrecord, AddressMap.get?_insert, if_pos (by decide), Option.isSome_some]

end Heap

end HostServices
