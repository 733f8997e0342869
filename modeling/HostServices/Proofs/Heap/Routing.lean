import HostServices.Proofs.Heap.Clients
import HostServices.Proofs.Host.Fresh

/-!
# Blocks from before the ledger

Early blocks have no headers and no records, so a heap must tell them from the others by their
addresses alone, while the host may use an address again. Each call keeps it that the early table is
the list of the early blocks that are out, and that all pointers have host blocks of their own
(`Clients.Routed`), whatever ledger is installed, and at whatever point: a request takes no block
that is held (`Ledger.Request.holds_new`, `Ledger.Request.holds_resized`), and the user's bytes of
one host block are not where another starts (`Ledger.ne_of_apart`). So early blocks are left to the
host in every run (`early_blocks_left_to_host`).
-/

namespace HostServices

/-! ## Early blocks and the blocks of requests -/

namespace Ledger

variable {l l' : Ledger} {B B' kept : Blocks} {held rest : List (UInt64 × UInt64)}
  {old : List UInt64} {p q k n : UInt64} {result : Except Stop (Option UInt64)}

theorem blockOf_innerOf (l : Ledger) (outer : UInt64) :
    l.blockOf (l.innerOf outer) = (outer, l.overhead) := by
  rw [blockOf, outerOf_innerOf]

/-- The user's bytes of one host block are not where another starts. -/
theorem ne_of_apart (hB : B.Apart) (hq : B (l.outerOf q) = some k) (hk : l.overhead < k)
    (hp : B p = some n) (hne : p ≠ l.outerOf q) : p ≠ q := by
  rintro rfl
  cases henabled : l.enabled with
  | false => exact hne (outerOf_untracked henabled p).symm
  | true =>
    have hlong : 18 < k.toNat := by
      rw [overhead, if_pos henabled] at hk
      exact UInt64.lt_iff_toNat_lt.1 hk
    rw [outerOf_tracked henabled] at hq hne
    have hfits := hB.fits hq
    have hplace : p.toNat = (BlockHeader.outerOf p).toNat + 16 := by
      have hlt : BlockHeader.headerSize.toNat < k.toNat := Nat.lt_trans (by decide) hlong
      have hsum : (BlockHeader.innerOf (BlockHeader.outerOf p)).toNat = _ :=
        Word.toNat_add_of_lt (Nat.lt_of_lt_of_le (Nat.add_lt_add_left hlt _) hfits)
      rwa [BlockHeader.innerOf_outerOf] at hsum
    have := hB.beside hp hq hne
    have := hB.size_pos hp
    omega

namespace Request

theorem blockOf (h : l.Request B kept old result B' l') : l'.blockOf = l.blockOf := by
  cases h with
  | unmet hl => exact hl.blockOf
  | met _ _ hl => exact hl.blockOf

theorem holds_new (h : l.Request B B old result B' l') (hB : B.Holds held) :
    B'.Holds held ∧ ∀ q, result = .ok (some q) → B'.Holds (l.blockOf q :: held) := by
  cases h with
  | unmet hl hresult => exact ⟨hB, fun q hq => absurd hq (hresult q)⟩
  | met houter hn hl hresult =>
    refine ⟨hB.of_take houter, fun q hq => ?_⟩
    obtain rfl := Option.some.inj (hresult _ hq)
    rw [blockOf_innerOf]
    exact hB.take houter hn

theorem holds_resized (h : l.Request B (B.drop (l.outerOf p)) old result B' l')
    (hB : B.Holds (l.blockOf p :: rest)) :
    B'.Holds ((Clients.resized p result).map l.blockOf ++ rest) := by
  cases h with
  | unmet hl hresult =>
    match result with
    | .error e => exact hB.tail
    | .ok none => exact hB
    | .ok (some q) => exact absurd rfl (hresult q)
  | met houter hn hl hresult =>
    cases result with
    | error e => exact hB.drop.of_take houter
    | ok answer =>
      obtain rfl := hresult answer rfl
      show Blocks.Holds _ (l.blockOf (l.innerOf _) :: rest)
      rw [blockOf_innerOf]
      exact hB.drop.take houter hn

/-- A request is about none of the blocks that it may not take. -/
theorem about (h : l.Request B kept old result B' l') (hB' : B'.Apart) (hkept : kept.Holds rest)
    (hp : (p, 0) ∈ rest) (hold : p ∉ old) : l'.about p = l.about p := by
  cases h with
  | unmet hl hresult => exact hl.about hold
  | @met outer n _ _ houter hn hl hresult =>
    have hheld := hkept.take houter hn
    obtain ⟨k, hk, -⟩ := hheld.longer (List.mem_cons_of_mem _ hp)
    have hne : p ≠ outer := by
      rintro rfl
      exact hkept.ne_none hp houter
    have hinner : p ≠ l.innerOf outer := by
      refine ne_of_apart hB' ?_ hn hk ?_
      · rw [outerOf_innerOf]
        exact Blocks.take_self
      · rwa [outerOf_innerOf]
    exact hl.about fun hin => (List.mem_cons.1 hin).elim hinner hold

end Request

end Ledger

/-! ## The invariant -/

namespace Clients

variable {σ : Type} [HostAllocator σ] (R : HostContract σ) {s s' : Clients σ}
  {early late : List UInt64} {p : UInt64}

/-- The pointers have host blocks of their own, and the early ones are those in the early table. -/
structure Routed (s : Clients σ) : Prop where
  valid : R.Valid s.heap.base.machine.host
  held : (R.owned s.heap.base.machine.host).Holds s.hostBlocks
  table : ∀ p, s.heap.base.blocks.contains p = true ↔ p ∈ s.early
  late_nil : s.heap.ledger? = none → s.late = []

/-- What a call other than the installation of a ledger keeps: the invariant, and what the ledger
has about early blocks. -/
structure Step (s s' : Clients σ) : Prop where
  routed : s'.Routed R
  unnoticed : ∀ p, p ∈ s.early ∨ p ∈ s'.early → s'.heap.about? p = s.heap.about? p

variable {R}

theorem routed_create {m : Machine σ} (hvalid : R.Valid m.host) :
    Routed R { heap := Heap.create m } where
  valid := hvalid
  held := .empty _
  table _ := ⟨nofun, nofun⟩
  late_nil _ := rfl

namespace Routed

variable (h : s.Routed R)
include h

theorem early_nodup : s.early.Nodup := by
  have hnodup := h.held.nodup
  rw [map_fst_hostBlocks] at hnodup
  exact (List.nodup_append.1 hnodup).1

theorem outerOf_not_early {l : Ledger} (hl : s.heap.ledger? = some l) (hp : p ∈ s.late) :
    l.outerOf p ∉ s.early := by
  intro hin
  have hnodup := h.held.nodup
  rw [map_fst_hostBlocks] at hnodup
  have hblock : (s.heap.blockOf p).1 = l.outerOf p := by
    rw [Heap.blockOf_of_ledger hl, Ledger.blockOf]
  exact (List.nodup_append.1 hnodup).2.2 _ hin _ (List.mem_map.2 ⟨p, hp, hblock⟩) rfl

/-- Pointers of the two kinds are different. -/
theorem not_early (hp : p ∈ s.late) : p ∉ s.early := by
  intro hearly
  cases hl : s.heap.ledger? with
  | none =>
    rw [h.late_nil hl] at hp
    cases hp
  | some l =>
    obtain ⟨k, hk, hlt⟩ := h.held.longer (mem_hostBlocks_late hp)
    obtain ⟨n, hn, -⟩ := h.held.longer (mem_hostBlocks_early hearly)
    rw [Heap.blockOf_of_ledger hl] at hk hlt
    have hne : p ≠ l.outerOf p := fun heq => h.outerOf_not_early hl hp (heq ▸ hearly)
    exact Ledger.ne_of_apart (R.apart h.valid) hk hlt hn hne rfl

theorem held_early (hp : p ∈ s.early) :
    (R.owned s.heap.base.machine.host).Holds
      ((p, 0) :: hostBlocks ⟨s.heap, s.early.erase p, s.late⟩) :=
  h.held.perm (((List.perm_cons_erase hp).map _).append_right _)

theorem held_late (hp : p ∈ s.late) :
    (R.owned s.heap.base.machine.host).Holds
      (s.heap.blockOf p :: hostBlocks ⟨s.heap, s.early, s.late.erase p⟩) :=
  (h.held.perm (((List.perm_cons_erase hp).map _).append_left _)).perm
    (hostBlocks_late s.heap [p] s.early (s.late.erase p))

theorem contains_eq_false (hp : p ∉ s.early) : s.heap.base.blocks.contains p = false := by
  rw [Bool.eq_false_iff]
  exact fun hcontains => hp ((h.table p).1 hcontains)

end Routed

/-! ## Steps -/

/-- What changes nothing but what does not depend on a ledger. -/
theorem Routed.step_withBase (hs : s.Routed R) {e : EarlyHeap σ} (hvalid : R.Valid e.machine.host)
    (hheld : (R.owned e.machine.host).Holds (hostBlocks ⟨s.heap, early, late⟩))
    (htable : ∀ p, e.blocks.contains p = true ↔ p ∈ early) (hlate : late ⊆ s.late) :
    s.Step R ⟨s.heap.withBase e, early, late⟩ where
  routed := by
    have hblockOf : (s.heap.withBase e).blockOf = s.heap.blockOf := by
      unfold Heap.blockOf
      rw [Heap.ledger?_withBase]
    refine ⟨?_, ?_, ?_, fun hl => ?_⟩
    · rwa [Heap.base_withBase]
    · rwa [Heap.base_withBase, hostBlocks_congr hblockOf]
    · rwa [Heap.base_withBase]
    · rw [Heap.ledger?_withBase] at hl
      exact List.subset_nil.1 (hs.late_nil hl ▸ hlate)
  unnoticed p _ := by
    unfold Heap.about?
    rw [Heap.ledger?_withBase]

/-- What changes a ledger, but nothing that it has about early blocks. -/
theorem Routed.step_ready {h h' : LedgerHeap σ} {late' : List UInt64}
    (hs : Routed R ⟨.ready h, early, late⟩) (hvalid : R.Valid h'.early.machine.host)
    (hblocks : h'.early.blocks = h.early.blocks) (hblockOf : h'.ledger.blockOf = h.ledger.blockOf)
    (hheld : (R.owned h'.early.machine.host).Holds (hostBlocks ⟨.ready h, early, late'⟩))
    (habout : ∀ p ∈ early, h'.ledger.about p = h.ledger.about p) :
    Step R ⟨.ready h, early, late⟩ ⟨.ready h', early, late'⟩ where
  routed := by
    refine ⟨hvalid, ?_, fun p => ?_, nofun⟩
    · rwa [hostBlocks_congr (show (Heap.ready h').blockOf = (Heap.ready h).blockOf from hblockOf)]
    · rw [← hs.table p, show (Heap.ready h').base.blocks = h.early.blocks from hblocks]
      rfl
  unnoticed p hp := congrArg some (habout p (hp.elim id id))

/-- A request to a heap with a ledger that may not take early blocks. -/
theorem Routed.step_request {h : LedgerHeap σ} (hs : Routed R ⟨.ready h, early, late⟩)
    {kept : Blocks} {rest : List (UInt64 × UInt64)} {old late' : List UInt64}
    {out : Outcome (LedgerHeap σ) (Option UInt64)} (hreq : h.Requested R kept old out)
    (hkept : kept.Holds rest) (hrest : ∀ p ∈ early, (p, 0) ∈ rest) (hold : ∀ p ∈ early, p ∉ old)
    (hheld : (R.owned out.state.early.machine.host).Holds (hostBlocks ⟨.ready h, early, late'⟩)) :
    Step R ⟨.ready h, early, late⟩ ⟨.ready out.state, early, late'⟩ :=
  hs.step_ready hreq.valid hreq.blocks hreq.request.blockOf hheld fun p hp =>
    hreq.request.about (R.apart hreq.valid) hkept (hrest p hp) (hold p hp)

theorem Routed.step_malloc (hs : s.Routed R) (n : UInt64) (c : Category) (origin : Origin) :
    s.Step R ((ClientCall.malloc n c origin).perform s) := by
  show s.Step R (s.receive _)
  obtain ⟨e | h, early, late⟩ := s
  · show Step R _ ⟨_, answered _ ++ early, late⟩
    obtain ⟨hresult, hstate⟩ := Heap.malloc_without_ledger (h := .early e) rfl n c origin
    rw [hresult, hstate]
    rcases hcall : HostAllocator.malloc (Word.max n 1) e.machine with ⟨_ | p, m⟩
    · obtain ⟨hvalid, howned⟩ := R.of_malloc hs.valid rfl (Word.max_one_pos n) hcall
      rw [Heap.bareMalloc_refused (h := .early e) hcall]
      refine hs.step_withBase (e := ⟨m, _⟩) hvalid ?_ hs.table (List.Subset.refl _)
      rw [show R.owned m.host = _ from howned]
      exact hs.held
    · obtain ⟨hvalid, hp, howned⟩ := R.of_malloc hs.valid rfl (Word.max_one_pos n) hcall
      rw [Heap.bareMalloc_granted (h := .early e) hcall]
      refine hs.step_withBase (e := ⟨m, _⟩) hvalid ?_ (fun q => ?_) (List.Subset.refl _)
      · rw [howned]
        exact hs.held.take hp (Word.max_one_pos n)
      · rw [EarlyBlocks.contains_insert, hs.table]
        exact List.mem_cons.symm
  · show Step R _ ⟨_, early, answered _ ++ late⟩
    have hreq := LedgerHeap.requested_malloc (h := h) hs.valid n c origin
    obtain ⟨hheld, hheld'⟩ := hreq.request.holds_new hs.held
    have step {late' : List UInt64}
        (hheld : (R.owned _).Holds (hostBlocks ⟨.ready h, early, late'⟩)) :=
      hs.step_request hreq hs.held (fun _ hp => mem_hostBlocks_early hp)
        (fun _ _ => List.not_mem_nil) hheld
    rw [Heap.malloc, Heap.run_choose_ready]
    cases hresult : ((LedgerHeap.malloc n c origin).run h).result with
    | error e => exact step hheld
    | ok answer =>
      cases answer with
      | none => exact step hheld
      | some q =>
        exact step ((hheld' q hresult).perm (hostBlocks_late (.ready h) [q] early late).symm)

section passed

variable (hs : s.Routed R)
include hs

theorem Routed.step_realloc_early (hp : p ∈ s.early) (n : UInt64) (c : Category) (origin : Origin) :
    s.Step R ((ClientCall.realloc (some p) n c origin).perform s) := by
  have hcontains : s.heap.base.blocks.contains p = true := (hs.table p).2 hp
  have hperm : (p :: s.early.erase p).Perm s.early := (List.perm_cons_erase hp).symm
  have hheld := hs.held_early hp
  have howner : R.owned s.heap.base.machine.host p ≠ none :=
    hheld.ne_none List.mem_cons_self
  show s.Step R (s.replace p _ _)
  rw [Heap.realloc_early hcontains, replace, if_pos hp]
  rcases hcall : HostAllocator.realloc p (Word.max n 1) s.heap.base.machine with ⟨_ | q, m⟩
  · obtain ⟨hvalid, howned⟩ := R.of_realloc hs.valid rfl howner (Word.max_one_pos n) hcall
    rw [Heap.bareRealloc_refused hcall]
    refine hs.step_withBase (e := ⟨m, _⟩) hvalid ?_ (fun q => ?_) (List.Subset.refl _)
    · rw [show R.owned m.host = _ from howned]
      exact hheld
    · rw [hs.table]
      exact hperm.symm.mem_iff
  · obtain ⟨hvalid, hq, howned⟩ := R.of_realloc hs.valid rfl howner (Word.max_one_pos n) hcall
    rw [Heap.bareRealloc_granted hcall]
    refine hs.step_withBase (e := ⟨m, _⟩) hvalid ?_ (fun x => ?_) (List.Subset.refl _)
    · rw [howned]
      exact hheld.drop.take hq (Word.max_one_pos n)
    · rw [EarlyBlocks.contains_insert, EarlyBlocks.contains_erase, hs.table,
        ← hs.early_nodup.mem_erase_iff]
      exact List.mem_cons.symm

theorem Routed.step_free_early (hp : p ∈ s.early) :
    s.Step R ((ClientCall.free (some p)).perform s) := by
  have hcontains : s.heap.base.blocks.contains p = true := (hs.table p).2 hp
  have hheld := hs.held_early hp
  obtain ⟨hvalid, howned⟩ := R.of_free hs.valid rfl (hheld.ne_none List.mem_cons_self)
  show s.Step R (s.replace p _ _)
  rw [Heap.free_early hcontains, replace, if_pos hp]
  refine hs.step_withBase (e := ⟨_, _⟩) hvalid ?_ (fun x => ?_) (List.Subset.refl _)
  · rw [howned]
    exact hheld.drop
  · rw [EarlyBlocks.contains_erase, hs.table, ← hs.early_nodup.mem_erase_iff]
    rfl

theorem Routed.step_realloc_late (hp : p ∈ s.late) (n : UInt64) (c : Category) (origin : Origin) :
    s.Step R ((ClientCall.realloc (some p) n c origin).perform s) := by
  obtain ⟨e | h, early, late⟩ := s
  · obtain rfl : late = [] := hs.late_nil rfl
    cases hp
  have hheld := hs.held_late hp
  have howner : R.owned h.early.machine.host (h.ledger.outerOf p) ≠ none :=
    hheld.ne_none List.mem_cons_self
  have hreq := LedgerHeap.requested_realloc (h := h) hs.valid howner
    (hs.contains_eq_false (hs.not_early hp)) n c origin
  have hheld' := (hreq.request.holds_resized hheld).perm (hostBlocks_late (.ready h) ..).symm
  show Step R _ (replace _ p _ _)
  rw [Heap.realloc, Heap.run_choose_ready, replace, if_neg (hs.not_early hp)]
  exact hs.step_request hreq hheld.drop (fun _ hq => mem_hostBlocks_early hq)
    (fun _ hq hin => hs.not_early hp (List.mem_singleton.1 hin ▸ hq)) hheld'

theorem Routed.step_free_late (hp : p ∈ s.late) :
    s.Step R ((ClientCall.free (some p)).perform s) := by
  obtain ⟨e | h, early, late⟩ := s
  · obtain rfl : late = [] := hs.late_nil rfl
    cases hp
  have hheld := hs.held_late hp
  have howner : R.owned h.early.machine.host (h.ledger.outerOf p) ≠ none :=
    hheld.ne_none List.mem_cons_self
  obtain ⟨hblocks, hvalid, howned, hl⟩ := LedgerHeap.handedBack_free (h := h) hs.valid howner
    (hs.contains_eq_false (hs.not_early hp))
  show Step R _ (replace _ p _ _)
  rw [Heap.free, Heap.run_choose_ready, replace, if_neg (hs.not_early hp)]
  refine hs.step_ready hvalid hblocks hl.blockOf ?_ fun q hq => hl.about fun hin => ?_
  · rcases howned with howned | howned
    · rw [howned]
      exact hheld.tail
    · rw [howned]
      exact hheld.drop
  · exact hs.not_early hp (List.mem_singleton.1 hin ▸ hq)

end passed

theorem Step.refl (hs : s.Routed R) : s.Step R s :=
  ⟨hs, fun _ _ => rfl⟩

/-- What is written is not noticed. -/
theorem Step.overwrite (h : s.Step R s') (mem : Memory) :
    s.Step R ((ClientCall.overwrite mem).perform s') where
  routed := by
    obtain ⟨hvalid, hheld, htable, hlate⟩ := h.routed
    obtain ⟨e | h', early, late⟩ := s' <;> exact ⟨hvalid, hheld, htable, hlate⟩
  unnoticed p hp := by
    rw [← h.unnoticed p hp]
    obtain ⟨e | h', early, late⟩ := s' <;> rfl

end Clients

/-! ## Runs -/

namespace ClientCall

variable {σ : Type} [HostAllocator σ] {R : HostContract σ} {s : Clients σ}

/-- A request that has the answer of another, and writes to what it leaves. -/
theorem receive_setMemory {out out' : Outcome (Heap σ) (Option UInt64)} {mem : Memory}
    (hstate : out'.state = out.state.setMemory mem)
    (hresult : Clients.answered out'.result = Clients.answered out.result) :
    s.receive out' = (overwrite mem).perform (s.receive out) := by
  unfold Clients.receive
  rw [hstate, hresult]
  cases s.heap.ledger? <;> rfl

theorem perform_duplicate (text : List UInt8) (c : Category) (origin : Origin) (s : Clients σ) :
    ∃ n mem, (duplicate text c origin).perform s =
      (overwrite mem).perform ((malloc n c origin).perform s) := by
  obtain ⟨n, mem, hstate, hresult⟩ := Heap.run_duplicate text c origin s.heap
  exact ⟨n, mem, receive_setMemory hstate (congrArg Clients.answered hresult)⟩

theorem perform_duplicateOrExit (text : List UInt8) (c : Category) (origin : Origin)
    (s : Clients σ) :
    (duplicateOrExit text c origin).perform s = (duplicate text c origin).perform s := by
  obtain ⟨hstate, hresult⟩ := Heap.run_duplicateOrExit text c origin s.heap
  unfold perform Clients.receive
  dsimp only
  rw [hstate, hresult]

/-- Each call but the installation of a ledger makes a step. -/
theorem perform_step (hs : s.Routed R) {call : ClientCall} (hproper : call.Proper s)
    (hinstall : ∀ l, call ≠ .install l) : s.Step R (call.perform s) := by
  cases call with
  | malloc n c origin => exact hs.step_malloc n c origin
  | duplicate text c origin =>
    obtain ⟨n, mem, heq⟩ := perform_duplicate text c origin s
    rw [heq]
    exact (hs.step_malloc n c origin).overwrite mem
  | duplicateOrExit text c origin =>
    obtain ⟨n, mem, heq⟩ := perform_duplicate text c origin s
    rw [perform_duplicateOrExit, heq]
    exact (hs.step_malloc n c origin).overwrite mem
  | realloc p n c origin =>
    cases p with
    | none => exact hs.step_malloc n c origin
    | some p =>
      rcases hproper p rfl with hp | hp
      · exact hs.step_realloc_early hp n c origin
      · exact hs.step_realloc_late hp n c origin
  | free p =>
    cases p with
    | none =>
      have hfree : (free none).perform s = s := by
        obtain ⟨e | h, early, late⟩ := s <;> rfl
      rw [hfree]
      exact .refl hs
    | some p =>
      rcases hproper p rfl with hp | hp
      · exact hs.step_free_early hp
      · exact hs.step_free_late hp
  | install l => exact absurd rfl (hinstall l)
  | overwrite mem => exact (Clients.Step.refl hs).overwrite mem

/-- A ledger that is installed finds early blocks only. -/
theorem routed_install (hs : s.Routed R) (l : Ledger) : ((install l).perform s).Routed R := by
  obtain ⟨e | h, early, late⟩ := s
  · obtain rfl : late = [] := hs.late_nil rfl
    exact ⟨hs.valid, hs.held, hs.table, nofun⟩
  · exact hs

theorem perform_routed (hs : s.Routed R) {call : ClientCall} (hproper : call.Proper s) :
    (call.perform s).Routed R := by
  by_cases hinstall : ∃ l, call = .install l
  · obtain ⟨l, rfl⟩ := hinstall
    exact routed_install hs l
  · exact (perform_step hs hproper fun l hl => hinstall ⟨l, hl⟩).routed

theorem run_routed (hs : s.Routed R) {calls : List ClientCall} (hproper : ProperRun calls s) :
    (run calls s).Routed R := by
  induction calls generalizing s with
  | nil => exact hs
  | cons call calls ih => exact ih (perform_routed hs hproper.1) hproper.2

end ClientCall

namespace Clients

variable {σ : Type} [HostAllocator σ] (R : HostContract σ) {s : Clients σ}

/-- Early blocks are left to the host. The early table is the list of those that are out, and each
of them is a block of the host. A call for one of them is a call of the host with the pointer that
was passed: it leaves all of the ledger as it was and reports nothing. And no call changes what the
ledger has about an early block. -/
structure LeftToHost (s : Clients σ) : Prop where
  table : ∀ p, s.heap.base.blocks.contains p = true ↔ p ∈ s.early
  size : s.heap.base.blocks.size = s.early.length
  late : ∀ p ∈ s.late, s.heap.base.blocks.contains p = false
  owned : ∀ p ∈ s.early, R.owned s.heap.base.machine.host p ≠ none
  malloc : s.heap.ledger? = none → ∀ n c origin,
    ((Heap.malloc n c origin).run s.heap).result = .ok (s.heap.bareMalloc n).1 ∧
      ((Heap.malloc n c origin).run s.heap).state = (s.heap.bareMalloc n).2
  realloc : ∀ p ∈ s.early, ∀ n c origin, (Heap.realloc (some p) n c origin).run s.heap =
    ⟨.ok (s.heap.bareRealloc p n).1, (s.heap.bareRealloc p n).2, []⟩
  free : ∀ p ∈ s.early, (Heap.free (some p)).run s.heap = ⟨.ok (), s.heap.bareFree p, []⟩
  unnoticed : ∀ call : ClientCall, call.Proper s → (∀ l, call ≠ .install l) →
    ∀ p, p ∈ s.early ∨ p ∈ (call.perform s).early →
      (call.perform s).heap.about? p = s.heap.about? p

variable {R}

theorem Routed.leftToHost (h : s.Routed R) : s.LeftToHost R where
  table := h.table
  size := EarlyBlocks.size_eq_length h.early_nodup h.table
  late _ hp := h.contains_eq_false (h.not_early hp)
  owned _ hp := h.held.ne_none (mem_hostBlocks_early hp)
  malloc hl := Heap.malloc_without_ledger hl
  realloc p hp := Heap.realloc_early ((h.table p).2 hp)
  free p hp := Heap.free_early ((h.table p).2 hp)
  unnoticed _ hproper hinstall := (ClientCall.perform_step h hproper hinstall).unnoticed

/-- Whatever ledger is installed in a run, and whenever, early blocks are left to the host. -/
theorem early_blocks_left_to_host (R : HostContract σ) {m : Machine σ} (hvalid : R.Valid m.host)
    (calls : List ClientCall) (hproper : ClientCall.ProperRun calls { heap := Heap.create m }) :
    (ClientCall.run calls { heap := Heap.create m }).LeftToHost R :=
  (ClientCall.run_routed (routed_create hvalid) hproper).leftToHost

/-- A block from before the ledger is resized on either side of its installation, next to one that
is tracked, and both are released. -/
def straddlingRun : List ClientCall :=
  [.malloc 24 .gc ⟨⟨"src/boot.rs", 3, 5⟩, .empty⟩,
    .realloc (some 0x100000000000) 64 .gc ⟨⟨"src/boot.rs", 4, 5⟩, .empty⟩,
    .install ⟨{ tracking := .detail }, .empty, {}, {}, .keep, []⟩,
    .malloc 100 .compiler ⟨⟨"src/jit.rs", 7, 9⟩, .empty⟩,
    .realloc (some 0x100000000020) 128 .gc ⟨⟨"src/boot.rs", 9, 5⟩, .empty⟩,
    .free (some 0x100000000080), .free (some 0x1000000000f0)]

theorem early_blocks_left_to_host_straddlingRun :
    FreshAllocator.contract.Valid {} ∧
      ClientCall.ProperRun straddlingRun
        { heap := Heap.create ⟨({} : FreshAllocator), Memory.zero⟩ } ∧
      (ClientCall.run straddlingRun
        { heap := Heap.create ⟨({} : FreshAllocator), Memory.zero⟩ }).LeftToHost
          FreshAllocator.contract := by
  have hproper : ClientCall.ProperRun straddlingRun
      { heap := Heap.create ⟨({} : FreshAllocator), Memory.zero⟩ } := by
    refine ⟨nofun, fun p hp => .inl ?_, nofun, nofun, fun p hp => .inl ?_, fun p hp => .inr ?_,
      fun p hp => .inl ?_, trivial⟩ <;> obtain rfl := Option.some.inj hp
    · decide +kernel
    · decide +kernel
    · decide +kernel
    · decide +kernel
  have hvalid : FreshAllocator.contract.Valid {} := FreshAllocator.wellFormed_empty
  exact ⟨hvalid, hproper,
    early_blocks_left_to_host FreshAllocator.contract hvalid straddlingRun hproper⟩

end Clients

end HostServices
