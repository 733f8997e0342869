import HostServices.Proofs.Heap.Counted

/-!
# Resized blocks

What a resize comes to that answers a block (`Resized`): the bytes that both lengths have, the pad
bytes behind them, the record in place of the old one, its share of the counters, and all other
live blocks as they were. The host has a block for it then (`realloc_moved`); the header is written
beside the user's bytes, and only the grown part of these is filled (`grownFill_kept`,
`grownFill_grown`).
-/

namespace HostServices

open BlockHeader (outerOf innerOf)

/-! ## One record in place of another -/

namespace Ledger

variable {l : Ledger} {p q n : UInt64} {b : LiveBlock}

/-- The ledger with a block of `n` bytes at `q` in place of `b` at `p`. -/
def replace (l : Ledger) (p : UInt64) (b : LiveBlock) (q n : UInt64) (origin : Origin)
    (marker : UInt32) (sites : SiteTable) : Ledger :=
  { l with
    live := (l.live.erase p).insert q ⟨n, b.category, l.originOf origin, marker⟩
    summary := (l.summary.deallocate b.category b.size).charge b.category n
    sites }

section replace

variable (origin : Origin) (marker : UInt32) (sites : SiteTable)

theorem get?_replace_self :
    (l.replace p b q n origin marker sites).live.get? q =
      some ⟨n, b.category, l.originOf origin, marker⟩ := by
  rw [replace, AddressMap.get?_insert, if_pos rfl]

theorem get?_replace_of_ne {p' : UInt64} (hp : p' ≠ p) (hq : p' ≠ q) :
    (l.replace p b q n origin marker sites).live.get? p' = l.live.get? p' := by
  rw [replace, AddressMap.get?_insert, if_neg hq.symm, AddressMap.get?_erase, if_neg hp.symm]

/-- The category has as many blocks as before, and its bytes change by the difference. -/
theorem category_replace (hcovers : l.summary.Covers b.category b.size)
    (hfits : (l.summary.deallocate b.category b.size).Fits b.category n) :
    ((l.replace p b q n origin marker sites).summary.category b.category).count =
        (l.summary.category b.category).count ∧
      ((l.replace p b q n origin marker sites).summary.category b.category).bytes.toNat +
          b.size.toNat = (l.summary.category b.category).bytes.toNat + n.toNat := by
  have hdischarged : (l.summary.deallocate b.category b.size).category b.category =
      (l.summary.category b.category).deallocate b.size := if_pos rfl
  have hcharged : (l.replace p b q n origin marker sites).summary.category b.category =
      ((l.summary.deallocate b.category b.size).category b.category).charge n := if_pos rfl
  have hfits := hfits.category
  rw [hdischarged] at hcharged hfits
  rw [hcharged]
  exact Counter.charge_deallocate hcovers.category hfits

end replace

end Ledger

namespace LedgerHeap

variable {σ : Type} {h h' : LedgerHeap σ} {p q n inner oldSize outer outerSize : UInt64}
  {b : LiveBlock} {c : Category} {origin : Origin}

/-! ## The grown part -/

/-- The bytes that a block had are left alone. -/
theorem grownFill_kept (h : LedgerHeap σ) (inner oldSize n : UInt64) :
    (h.grownFill inner oldSize n).read inner (min oldSize.toNat n.toNat) =
      h.memory.read inner (min oldSize.toNat n.toNat) := by
  unfold grownFill
  split
  · rename_i hgrow
    simp only [Bool.and_eq_true, decide_eq_true_eq] at hgrow
    have hle : oldSize.toNat ≤ n.toNat := Nat.le_of_lt (UInt64.lt_iff_toNat_lt.1 hgrow.1.1)
    refine List.map_congr_left fun i hi => Memory.fill_of_not_inRange fun hin => ?_
    have hi := List.mem_range.1 hi
    have hbehind := (Memory.inRange_behind_iff hle (by omega)).1 hin
    omega
  · rfl

/-- The bytes that a block gains are filled, unless fresh blocks are filled with zeros. -/
theorem grownFill_grown (hpad : h.ledger.config.padFill = true)
    (hzero : h.ledger.config.deterministicFill = false) {i : ℕ} (hi : oldSize.toNat ≤ i)
    (hn : i < n.toNat) :
    h.grownFill inner oldSize n (inner + UInt64.ofNat i) = MemoryConfig.padByte := by
  have hgrow : oldSize < n := UInt64.lt_iff_toNat_lt.2 (Nat.lt_of_le_of_lt hi hn)
  unfold grownFill
  simp only [hgrow, hpad, hzero, decide_true, Bool.not_false, Bool.and_self, if_true]
  exact Memory.fill_of_inRange
    ((Memory.inRange_behind_iff (Nat.le_of_lt (UInt64.lt_iff_toNat_lt.1 hgrow)) hn).2 hi)

/-! ## What a resize comes to -/

/-- The live block `b` at `p` has become one of `n` bytes at `q`. -/
structure Resized (h : LedgerHeap σ) (p : UInt64) (b : LiveBlock) (n : UInt64) (origin : Origin)
    (q : UInt64) (h' : LedgerHeap σ) : Prop where
  kept : h'.memory.read q (min b.size.toNat n.toNat) = h.memory.read p (min b.size.toNat n.toNat)
  padded : h.ledger.config.padFill = true → h.ledger.config.deterministicFill = false →
    ∀ i, b.size.toNat ≤ i → i < n.toNat → h'.memory (q + UInt64.ofNat i) = MemoryConfig.padByte
  /-- The block is no other live one's. -/
  fresh : (h.ledger.live.erase p).get? q = none
  record : ∃ marker, h'.ledger.live =
    (h.ledger.live.erase p).insert q ⟨n, b.category, h.ledger.originOf origin, marker⟩
  count : (h'.ledger.summary.category b.category).count =
    (h.ledger.summary.category b.category).count
  bytes : (h'.ledger.summary.category b.category).bytes.toNat + b.size.toNat =
    (h.ledger.summary.category b.category).bytes.toNat + n.toNat
  /-- All others have their records, and their bytes with the headers and footers around them. -/
  others : ∀ p' b', p' ≠ p → h.ledger.live.get? p' = some b' →
    h'.ledger.live.get? p' = some b' ∧
      Memory.SameBytes h.memory h'.memory (outerOf p') (b'.size.toNat + 18)
  intact : ∀ b', h'.ledger.live.get? q = some b' → Ledger.inspectBlock h'.memory q b' = .ok ()
  reports : h'.ledger.reports = h.ledger.reports

variable [HostAllocator σ] {R : HostContract σ}

/-- The bytes that both lengths have are where the host has moved them. -/
theorem Moved.read_user {m : Machine σ} (hmoved : Moved R h p b m outer outerSize n)
    (hn : b.size.toNat + 18 < 2 ^ 64) :
    m.memory.read (innerOf outer) (min b.size.toNat n.toNat) =
      h.memory.read p (min b.size.toNat n.toNat) := by
  have hkept := hmoved.kept
  rw [Word.toNat_min] at hkept
  exact hkept.trans (BlockHeader.read_setMarks_user hn (Nat.min_le_left ..))

section moved

variable {m : Machine σ} (hmoved : Moved R h p b m outer outerSize n) (hs : Heap.Sound R (.ready h))
  (hcounted : h.ledger.Counted) (hlive : h.ledger.live.get? p = some b)
include hmoved hcounted hlive

omit hs in
theorem Moved.room :
    (h.ledger.live.erase p).get? (innerOf outer) = none ∧
      (h.ledger.summary.deallocate b.category b.size).Fits b.category n := by
  have hf := hmoved.fresh
  exact hf.secured.fits_summary (b := ⟨n, b.category, b.origin, 0⟩) (hcounted.retire hlive) hf.fresh
    hf.apart hf.length

/-- A block that the host has moved is recorded under its header, and its grown part filled. -/
theorem Moved.recorded
    (hresult : ((recordResized ((h.takenOut p b).keptHash p (Word.min b.size n)) p b.size outer n
      b.category origin).run ((h.retire p b).setMachine m)).result = .ok (some q)) :
    q = innerOf outer ∧ ∃ (marker : UInt32) (sites : SiteTable) (g : LedgerHeap σ),
      g.memory = (LiveBlock.header ⟨n, b.category, h.ledger.originOf origin, marker⟩).install m.memory
        outer ∧
      g.ledger = h.ledger.replace p b q n origin marker sites ∧
      ((recordResized ((h.takenOut p b).keptHash p (Word.min b.size n)) p b.size outer n
        b.category origin).run ((h.retire p b).setMachine m)).state =
          g.setMemory (g.grownFill q b.size n) := by
  have hf := hmoved.fresh
  obtain ⟨sites, ⟨marker, hstate, hrecord⟩ | ⟨e, hstate, hrecord⟩⟩ :=
    TrackedMemory.recordMalloc_of_summary (t := ((h.retire p b).setMachine m).tracked) hf.enabled
      (hmoved.room hcounted hlive).2 outer origin
  · have hsum (sum : UInt64)
        (hkept : (h.takenOut p b).keptHash p (Word.min b.size n) = some sum) :=
      hf.checksum_install (fun _ => hmoved.keptHash)
        ⟨n, b.category, h.ledger.originOf origin, marker⟩ rfl hkept
    rw [(recordResized_of_ok hstate hrecord hsum).2] at hresult
    obtain rfl := Option.some.inj (Except.ok.inj hresult)
    exact ⟨rfl, marker, sites, _, rfl, rfl, (recordResized_of_ok hstate hrecord hsum).1⟩
  · rw [(recordResized_of_error hstate hrecord).2] at hresult
    cases hresult

include hs

/-- A block that the host has moved, once it is recorded. -/
theorem Moved.resized
    (hresult : ((recordResized ((h.takenOut p b).keptHash p (Word.min b.size n)) p b.size outer n
      b.category origin).run ((h.retire p b).setMachine m)).result = .ok (some q)) :
    h.Resized p b n origin q
      ((recordResized ((h.takenOut p b).keptHash p (Word.min b.size n)) p b.size outer n
        b.category origin).run ((h.retire p b).setMachine m)).state := by
  obtain ⟨rfl, marker, sites, g, hmemory, hledger, hstate⟩ := hmoved.recorded hcounted hlive hresult
  obtain ⟨hfresh, hfits⟩ := hmoved.room hcounted hlive
  have hf := hmoved.fresh
  have hsecured : Secured (R.owned h.early.machine.host) h.early.blocks h.ledger.live := hs.secured
  have hwritten : Written ((R.owned h.early.machine.host).drop (outerOf p)) m.memory
      (g.grownFill (innerOf outer) b.size n) outer outerSize
      ⟨n, b.category, h.ledger.originOf origin, marker⟩ :=
    ⟨hf.fresh, hf.apart, hf.length, fun a ha => hmemory ▸ grownFill_of_not_user ha⟩
  obtain ⟨hcount, hbytes⟩ := Ledger.category_replace (p := p) (q := innerOf outer) origin marker sites
    (hcounted.covers hlive) hfits
  rw [← hledger] at hcount hbytes
  rw [hstate]
  constructor
  case kept =>
    show (g.grownFill (innerOf outer) b.size n).read _ _ = _
    rw [grownFill_kept, hmemory, BlockHeader.read_install_user (hf.length ▸ outerSize.toNat_lt)
      (Nat.min_le_right ..), hmoved.read_user (hsecured.length_lt hlive)]
  case padded =>
    intro hpad hzero i hi hn
    have hconfig : g.ledger.config = h.ledger.config := by rw [hledger, Ledger.replace]
    exact grownFill_grown (hconfig ▸ hpad) (hconfig ▸ hzero) hi hn
  case fresh => exact hfresh
  case record =>
    refine ⟨marker, ?_⟩
    show g.ledger.live = _
    rw [hledger, Ledger.replace]
  case count => exact hcount
  case bytes => exact hbytes
  case others =>
    intro p' b' hne hb'
    have hlive' : (h.ledger.live.erase p).get? p' = some b' := by
      rw [AddressMap.get?_erase, if_neg hne.symm, hb']
    have hne' : p' ≠ innerOf outer := by
      rintro rfl
      rw [hlive'] at hfresh
      cases hfresh
    refine ⟨?_, fun a ha => ?_⟩
    · show g.ledger.live.get? p' = some b'
      rw [hledger, Ledger.get?_replace_of_ne origin marker sites hne hne', hb']
    · exact (hsecured.release hlive).around hlive' (hmoved.others.trans hwritten.sameBytes) ha
  case intact =>
    intro b' hb'
    have hb' : g.ledger.live.get? (innerOf outer) = some b' := hb'
    rw [hledger, Ledger.get?_replace_self] at hb'
    obtain rfl := Option.some.inj hb'
    exact hwritten.inspectBlock
  case reports =>
    show g.ledger.reports = _
    rw [hledger, Ledger.replace]

end moved

/-- A resize that answers a block has found the old one intact and asked for its own category, and
the host has moved it. -/
theorem realloc_moved (hcareful : R.Careful) (hs : Heap.Sound R (.ready h))
    (hlive : h.ledger.live.get? p = some b)
    (hresult : ((realloc (some p) n c origin).run h).result = .ok (some q)) :
    ∃ outer outerSize m, Moved R h p b m outer outerSize (Word.max n 1) ∧
      (realloc (some p) n c origin).run h =
        (recordResized ((h.takenOut p b).keptHash p (Word.min b.size (Word.max n 1))) p b.size outer
          (Word.max n 1) b.category origin).run ((h.retire p b).setMachine m) := by
  have henabled : h.ledger.enabled = true := hs.enabled _ rfl
  have hp : h.early.blocks.contains p = false := hs.secured.not_early hlive (R.apart hs.valid)
  rw [run_realloc_tracked henabled hp] at hresult ⊢
  cases hsize : Word.add? (Word.max n 1) h.ledger.overhead with
  | none =>
    rw [reallocTracked_tooLarge hsize] at hresult
    cases hresult
  | some outerSize =>
    cases hkind : Ledger.inspectForResize h.memory p b c with
    | error kind =>
      rw [reallocTracked_damaged henabled hsize hlive hkind] at hresult
      cases hpolicy : h.ledger.policy <;> rw [hpolicy] at hresult <;> cases hresult
    | ok u =>
      have hok := Ledger.inspectBlock_of_inspectForResize hkind
      obtain rfl := Ledger.category_of_inspectForResize hkind
      rw [reallocTracked_intact henabled hsize hlive hkind] at hresult ⊢
      obtain ⟨-, hnone⟩ | ⟨outer, m, hmoved, hrun⟩ :=
        resizeRemoved_cases hcareful hs hlive hok (Word.max_one_pos n) hsize origin
      · rw [hnone] at hresult
        cases hresult
      · exact ⟨outer, outerSize, m, hmoved, hrun⟩

end LedgerHeap

namespace Heap

/-- Whatever a heap with tracking was asked for before, a resize of a live block that answers a
block has kept the bytes that both lengths have, filled the grown part as the configuration asks,
put the new record in place of the old one, changed the block's share of the counters, and left all
other live blocks alone. -/
theorem realloc_replaces {σ : Type} [HostAllocator σ] {R : HostContract σ} (hcareful : R.Careful)
    {h : LedgerHeap σ} (hreach : Reachable R (.ready h)) {p q n : UInt64} {b : LiveBlock}
    (hlive : h.ledger.live.get? p = some b) {c : Category} {origin : Origin}
    (hresult : ((Heap.realloc (some p) n c origin).run (.ready h)).result = .ok (some q)) :
    ∃ h', ((Heap.realloc (some p) n c origin).run (.ready h)).state = .ready h' ∧
      h.Resized p b (Word.max n 1) origin q h' := by
  have hs := hreach.sound
  have hresult : ((LedgerHeap.realloc (some p) n c origin).run h).result = .ok (some q) := hresult
  obtain ⟨outer, outerSize, m, hmoved, hrun⟩ :=
    LedgerHeap.realloc_moved hcareful hs hlive hresult
  refine ⟨((LedgerHeap.realloc (some p) n c origin).run h).state, rfl, ?_⟩
  rw [hrun] at hresult ⊢
  exact hmoved.resized hs (hreach.counted _ rfl) hlive hresult

/-- Two blocks at the level of call sites. -/
def twoMallocs : List HeapCall :=
  [.install { tracking := .detail } .keep, .malloc 40 .compiler ⟨⟨"src/jit.rs", 7, 9⟩, .empty⟩,
    .malloc 8 .gc ⟨⟨"src/boot.rs", 3, 5⟩, .empty⟩]

/-- A text is written to the first of them. -/
def labelledRun : List HeapCall :=
  twoMallocs ++ [.overwrite ((HeapCall.run twoMallocs
    (create ⟨({} : FreshAllocator), Memory.zero⟩)).memory.write 0x100000000010 #[104, 111, 115, 116])]

/-- A heap with these blocks over an allocator without reuse. -/
def labelled : Heap FreshAllocator :=
  HeapCall.run labelledRun (create ⟨{}, Memory.zero⟩)

/-- The first block is to grow. -/
def growLabelled : Op (Heap FreshAllocator) (Option UInt64) :=
  Heap.realloc (some 0x100000000010) 60 .compiler ⟨⟨"src/jit.rs", 8, 9⟩, .empty⟩

theorem realloc_replaces_labelled :
    FreshAllocator.contract.Careful ∧
      ∃ h : LedgerHeap FreshAllocator, labelled = .ready h ∧
        Reachable FreshAllocator.contract (.ready h) ∧
        h.ledger.live.get? 0x100000000010 =
          some ⟨40, .compiler, ⟨⟨"src/jit.rs", 7, 9⟩, .empty⟩, 1⟩ ∧
        h.memory.read 0x100000000010 4 = [104, 111, 115, 116] ∧
        (growLabelled.run (.ready h)).result = .ok (some 0x100000000070) ∧
        ∃ h', (growLabelled.run (.ready h)).state = .ready h' ∧
          h'.memory.read 0x100000000070 40 = h.memory.read 0x100000000010 40 ∧
          h'.memory (0x100000000070 + 59) = MemoryConfig.padByte ∧
          (h'.ledger.summary.category .compiler).bytes.toNat + 40 =
            (h.ledger.summary.category .compiler).bytes.toNat + 60 := by
  have hcareful := FreshAllocator.careful_contract
  have hreach : labelled.Reachable FreshAllocator.contract :=
    ⟨⟨{}, Memory.zero⟩, labelledRun, FreshAllocator.wellFormed_empty,
      ⟨rfl, trivial, trivial, trivial, trivial⟩, rfl⟩
  have hlive : labelled.live.get? 0x100000000010 =
      some ⟨40, .compiler, ⟨⟨"src/jit.rs", 7, 9⟩, .empty⟩, 1⟩ := by decide +kernel
  have htext : labelled.memory.read 0x100000000010 4 = [104, 111, 115, 116] := by decide +kernel
  have hconfig : labelled.ledger?.map (·.config) = some { tracking := .detail } := by decide +kernel
  have hresult : (growLabelled.run labelled).result = .ok (some 0x100000000070) := by decide +kernel
  obtain ⟨h, hrun⟩ : ∃ h, labelled = .ready h := ⟨_, rfl⟩
  rw [hrun] at hreach hlive htext hconfig hresult
  have hconfig : h.ledger.config = { tracking := .detail } := Option.some.inj hconfig
  obtain ⟨h', hstate, hresized⟩ := realloc_replaces hcareful hreach hlive hresult
  exact ⟨hcareful, h, hrun, hreach, hlive, htext, hresult, h', hstate, hresized.kept,
    hresized.padded (congrArg MemoryConfig.padFill hconfig)
      (congrArg MemoryConfig.deterministicFill hconfig) 59 (by decide) (by decide),
    hresized.bytes⟩

end Heap

end HostServices
