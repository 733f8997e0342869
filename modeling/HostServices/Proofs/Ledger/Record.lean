import HostServices.Proofs.Ledger.Tallies

/-!
# What the ledger's operations leave

What each operation of the ledger comes to, case by case: a block that is not live and a damaged one
are reported (`TrackedMemory.reported`), an intact one is not. Fresh blocks are recorded as they are
charged (`recordMalloc_of_fits`), and where a counter would go round, nothing but counters has changed
(`recordMalloc_cases`).
-/

namespace HostServices

/-- The result of an operation that reported a corruption and would then answer `a`. -/
def CorruptionPolicy.answer {α : Type} (policy : CorruptionPolicy) (c : Corruption) (a : α) :
    Except Stop α :=
  match policy with
  | .keep => .ok a
  | .abort => .error (.abort c.notice)

/-- The event of a corruption. -/
def Corruption.alarm (c : Corruption) : Event where
  severity := .error
  source := .malloc
  message := s!"native memory corruption: {c.message}"
  fields := [("operation", .string c.operation.name), ("block", .word c.block)]

/-- After a step that reported a corruption, one that does nothing. -/
theorem Op.run_bind_of_answer {σ α β : Type} {op : Op σ α} {next : α → Op σ β} {s s' : σ}
    {policy : CorruptionPolicy} {c : Corruption} {a : α} {x : β} {events : List Event}
    (h : op.run s = ⟨policy.answer c a, s', events⟩) (hnext : (next a).run s' = ⟨.ok x, s', []⟩) :
    (op >>= next).run s = ⟨policy.answer c x, s', events⟩ := by
  cases policy with
  | keep =>
    rw [Op.run_bind_of_ok (show (op.run s).result = .ok a by rw [h]; rfl), h, hnext,
      List.append_nil]
    rfl
  | abort =>
    rw [Op.run_bind_of_error (show (op.run s).result = _ by rw [h]; rfl), h]
    rfl

namespace Ledger

variable {l : Ledger} {n : UInt64} {c : Category}

/-- The ledger with some more reports. -/
def addReports (l : Ledger) (found : List Corruption) : Ledger :=
  { l with reports := l.reports ++ found }

/-- The ledger with one more report. -/
def noted (l : Ledger) (c : Corruption) : Ledger :=
  l.addReports [c]

/-- The ledger without a block, which is taken out of the counters as well. -/
def retire (l : Ledger) (inner : UInt64) (b : LiveBlock) : Ledger :=
  { l with live := l.live.erase inner }.discharge b

theorem state_reportCorruption (c : Corruption) (l : Ledger) :
    ((reportCorruption c).run l).state = l.noted c := by
  rcases l with ⟨_, _, _, _, policy, _⟩
  cases policy <;> rfl

theorem result_reportCorruption (c : Corruption) (l : Ledger) :
    ((reportCorruption c).run l).result = l.policy.answer c () := by
  rcases l with ⟨_, _, _, _, policy, _⟩
  cases policy <;> rfl

end Ledger

namespace TrackedMemory

variable {t : TrackedMemory} {inner outer n : UInt64} {c : Category} {origin : Origin}
  {b : LiveBlock} {kind : Corruption.Kind}

/-- The memory with one more report in its ledger. -/
def noted (t : TrackedMemory) (c : Corruption) : TrackedMemory :=
  { t with ledger := t.ledger.noted c }

@[simp] theorem memory_removeLive (t : TrackedMemory) (inner : UInt64) :
    (t.removeLive inner).memory = t.memory := rfl

/-- The memory with a block taken out of its ledger. -/
def retire (t : TrackedMemory) (inner : UInt64) (b : LiveBlock) : TrackedMemory :=
  { t with ledger := t.ledger.retire inner b }

/-- What an operation on a block comes to that reports a corruption. -/
def reported {α : Type} (t : TrackedMemory) (c : Corruption) :
    Outcome TrackedMemory (Except Corruption α) :=
  ⟨t.ledger.policy.answer c (.error c), t.noted c, [c.alarm]⟩

theorem run_corrupt {α : Type} (operation : BlockOperation) (inner : UInt64)
    (kind : Corruption.Kind) (t : TrackedMemory) :
    (corrupt operation inner kind : Op TrackedMemory (Except Corruption α)).run t =
      t.reported ⟨operation, inner, kind⟩ := by
  rcases t with ⟨⟨_, _, _, _, policy, _⟩, _⟩
  cases policy <;> rfl

/-! ## Without tracking -/

section untracked

variable (henabled : t.ledger.enabled = false)
include henabled

theorem level_off : t.ledger.level = .off := by
  unfold Ledger.enabled at henabled
  cases h : t.ledger.level
  · rfl
  · rw [h] at henabled
    cases henabled
  · rw [h] at henabled
    cases henabled

theorem recordMalloc_untracked (outer n : UInt64) (c : Category) (origin : Origin) :
    (recordMalloc outer n c origin).run t = ⟨.ok outer, t, []⟩ := by
  unfold recordMalloc
  simp only [Op.run_get_bind, level_off henabled, if_true]
  rfl

theorem recordFree_untracked (inner : UInt64) :
    (recordFree inner).run t = ⟨.ok (.ok inner), t, []⟩ := by
  unfold recordFree
  simp only [Op.run_get_bind, henabled, Bool.not_false, if_true]
  rfl

theorem markDeadForRealloc_untracked (inner : UInt64) (c : Category) :
    (markDeadForRealloc inner c).run t = ⟨.ok (.ok ⟨inner, none⟩), t, []⟩ := by
  unfold markDeadForRealloc
  simp only [Op.run_get_bind, henabled, Bool.not_false, if_true]
  rfl

end untracked

/-! ## Release -/

section recordFree

variable (henabled : t.ledger.enabled = true)
include henabled

theorem recordFree_notLive (h : t.ledger.live.get? inner = none) :
    (recordFree inner).run t = t.reported ⟨.free, inner, .notLive⟩ := by
  unfold recordFree
  simp only [Op.run_get_bind, henabled, h, Bool.not_true, Bool.false_eq_true, if_false]
  exact run_corrupt ..

/-- A damaged block is out of the ledger and its counters. -/
theorem recordFree_damaged (h : t.ledger.live.get? inner = some b)
    (hkind : Ledger.inspectBlock t.memory inner b = .error kind) :
    (recordFree inner).run t = (t.retire inner b).reported ⟨.free, inner, kind⟩ := by
  unfold recordFree
  simp only [Op.run_get_bind, Op.run_modify_bind, henabled, h, memory_removeLive, hkind,
    Bool.not_true, Bool.false_eq_true, if_false]
  exact run_corrupt ..

theorem recordFree_intact (h : t.ledger.live.get? inner = some b)
    (hkind : Ledger.inspectBlock t.memory inner b = .ok ()) :
    ((recordFree inner).run t).state = (t.retire inner b).setMarks inner b BlockHeader.dead ∧
      ((recordFree inner).run t).result = .ok (.ok (BlockHeader.outerOf inner)) := by
  unfold recordFree
  simp only [Op.state_get_bind, Op.result_get_bind, Op.state_modify_bind, Op.result_modify_bind,
    henabled, h, memory_removeLive, hkind, Bool.not_true, Bool.false_eq_true, if_false]
  exact ⟨rfl, rfl⟩

/-! ## Resizing -/

theorem markDeadForRealloc_notLive (h : t.ledger.live.get? inner = none) :
    (markDeadForRealloc inner c).run t = t.reported ⟨.realloc, inner, .notLive⟩ := by
  unfold markDeadForRealloc
  simp only [Op.run_get_bind, henabled, h, Bool.not_true, Bool.false_eq_true, if_false]
  exact run_corrupt ..

/-- A damaged block, or one of another category, is out of the ledger and its counters. -/
theorem markDeadForRealloc_damaged (h : t.ledger.live.get? inner = some b)
    (hkind : Ledger.inspectForResize t.memory inner b c = .error kind) :
    (markDeadForRealloc inner c).run t = (t.retire inner b).reported ⟨.realloc, inner, kind⟩ := by
  unfold markDeadForRealloc
  simp only [Op.run_get_bind, Op.run_modify_bind, henabled, h, memory_removeLive, hkind,
    Bool.not_true, Bool.false_eq_true, if_false]
  exact run_corrupt ..

/-- An intact block stays in the counters. -/
theorem markDeadForRealloc_intact (h : t.ledger.live.get? inner = some b)
    (hkind : Ledger.inspectForResize t.memory inner b c = .ok ()) :
    (markDeadForRealloc inner c).run t =
      ⟨.ok (.ok ⟨inner, some b⟩), (t.removeLive inner).setMarks inner b BlockHeader.dead, []⟩ := by
  unfold markDeadForRealloc
  rw [Op.run_get_bind]
  simp only [henabled, Bool.not_true, Bool.false_eq_true, if_false, Op.run_get_bind, h,
    Op.run_modify_bind, memory_removeLive, hkind]
  rfl

end recordFree

/-- A block that is put back where it was taken from leaves the ledger as it was. -/
theorem ledger_revive (h : t.ledger.live.get? inner = some b) (m : Memory) :
    (revive ⟨inner, some b⟩ ⟨(t.removeLive inner).ledger, m⟩).ledger = t.ledger := by
  show { t.ledger with live := (t.ledger.live.erase inner).insert inner b } = t.ledger
  rw [AddressMap.insert_erase h]

/-! ## Fresh blocks -/

/-- The memory with a record in its ledger and the header of the block. -/
def install (t : TrackedMemory) (outer : UInt64) (b : LiveBlock) : TrackedMemory :=
  { t with memory := b.header.install t.memory outer }.addLive (BlockHeader.innerOf outer) b

/-- Charge the requester of a block and answer its marker. -/
def chargeRequester (n : UInt64) (c : Category) (origin : Origin) : Op TrackedMemory UInt32 :=
  onLedger (Op.zoom (·.sites) (fun l s => { l with sites := s })
    (SiteTable.allocate (Ledger.requester origin c) n))

/-- Record a block whose requester has been charged. -/
def recordMarked (outer n : UInt64) (c : Category) (origin : Origin) (marker : UInt32) :
    Op TrackedMemory UInt64 := do
  onLedger (Op.zoom (·.summary) (fun l s => { l with summary := s }) (MallocSummary.allocate c n))
  let block : LiveBlock := ⟨n, c, origin, marker⟩
  let inner := BlockHeader.innerOf outer
  modify fun t => { t with memory := block.header.install t.memory outer }
  modify (·.addLive inner block)
  Op.report .trace .malloc "malloc"
    [("addr", .word inner), ("size", .word n), ("flags", .shown c.displayName)]
  return inner

theorem recordMalloc_detail (h : t.ledger.level = .detail) :
    (recordMalloc outer n c origin).run t =
      (chargeRequester n c origin >>= recordMarked outer n c origin).run t := by
  unfold recordMalloc
  simp only [Op.run_get_bind, h, reduceCtorEq, if_false, if_true]
  rfl

theorem recordMalloc_summary (h : t.ledger.level = .summary) :
    (recordMalloc outer n c origin).run t =
      (recordMarked outer n c { origin with stack := .empty } 0).run t := by
  unfold recordMalloc
  simp only [Op.run_get_bind, h, reduceCtorEq, if_false, Op.run_pure_bind]
  rfl

section recordMarked

variable {marker : UInt32} {summary : MallocSummary}

theorem recordMarked_of_ok (hsummary : ((MallocSummary.allocate c n).run t.ledger.summary).state = summary)
    (hresult : ((MallocSummary.allocate c n).run t.ledger.summary).result = .ok ()) :
    ((recordMarked outer n c origin marker).run t).state =
        install { t with ledger := { t.ledger with summary } } outer ⟨n, c, origin, marker⟩ ∧
      ((recordMarked outer n c origin marker).run t).result = .ok (BlockHeader.innerOf outer) := by
  have hfirst : ((onLedger (Op.zoom (·.summary) (fun l s => { l with summary := s })
      (MallocSummary.allocate c n))).run t).result = .ok () := hresult
  unfold recordMarked
  rw [Op.state_bind_of_ok hfirst, Op.result_bind_of_ok hfirst]
  subst hsummary
  exact ⟨rfl, rfl⟩

theorem recordMarked_of_error {e : Stop}
    (hsummary : ((MallocSummary.allocate c n).run t.ledger.summary).state = summary)
    (hresult : ((MallocSummary.allocate c n).run t.ledger.summary).result = .error e) :
    ((recordMarked outer n c origin marker).run t).state =
        { t with ledger := { t.ledger with summary } } ∧
      ((recordMarked outer n c origin marker).run t).result = .error e := by
  have hfirst : ((onLedger (Op.zoom (·.summary) (fun l s => { l with summary := s })
      (MallocSummary.allocate c n))).run t).result = .error e := hresult
  unfold recordMarked
  rw [Op.state_bind_of_error hfirst, Op.result_bind_of_error hfirst]
  subst hsummary
  exact ⟨rfl, rfl⟩

/-- What memory holds plays no part in whether a counter goes round. -/
theorem recordMarked_uniform (l : Ledger) (outer n : UInt64) (c : Category) (origin : Origin)
    (marker : UInt32) :
    (((MallocSummary.allocate c n).run l.summary).result = .ok () ∧
      ∀ mem, ((recordMarked outer n c origin marker).run ⟨l, mem⟩).state =
          install ⟨{ l with summary := ((MallocSummary.allocate c n).run l.summary).state }, mem⟩
            outer ⟨n, c, origin, marker⟩ ∧
        ((recordMarked outer n c origin marker).run ⟨l, mem⟩).result =
          .ok (BlockHeader.innerOf outer)) ∨
    ∃ e, ((MallocSummary.allocate c n).run l.summary).result = .error e ∧
      ∀ mem, ((recordMarked outer n c origin marker).run ⟨l, mem⟩).state =
          ⟨{ l with summary := ((MallocSummary.allocate c n).run l.summary).state }, mem⟩ ∧
        ((recordMarked outer n c origin marker).run ⟨l, mem⟩).result = .error e := by
  cases hresult : ((MallocSummary.allocate c n).run l.summary).result with
  | ok u => exact .inl ⟨rfl, fun mem => recordMarked_of_ok (t := ⟨l, mem⟩) rfl hresult⟩
  | error e =>
    exact .inr ⟨e, rfl, fun mem => recordMarked_of_error (t := ⟨l, mem⟩) rfl hresult⟩

end recordMarked

section recordMalloc

variable (henabled : t.ledger.enabled = true)
include henabled

theorem summary_or_detail : t.ledger.level = .summary ∨ t.ledger.level = .detail := by
  unfold Ledger.enabled at henabled
  cases h : t.ledger.level
  · rw [h] at henabled
    cases henabled
  · exact .inl rfl
  · exact .inr rfl

/-- A fresh block is charged, recorded and written. -/
theorem recordMalloc_of_fits (hf : t.ledger.Fits c (t.ledger.originOf origin) n)
    (hmarker : t.ledger.HasMarker c (t.ledger.originOf origin)) :
    ((recordMalloc outer n c origin).run t).state =
        install { t with ledger := (t.ledger.charge c (t.ledger.originOf origin) n).1 } outer
          ⟨n, c, t.ledger.originOf origin, (t.ledger.charge c (t.ledger.originOf origin) n).2⟩ ∧
      ((recordMalloc outer n c origin).run t).result = .ok (BlockHeader.innerOf outer) := by
  obtain ⟨hsummary, hsites⟩ := hf
  obtain ⟨hstate, hresult⟩ := MallocSummary.allocate_of_fits hsummary
  rcases summary_or_detail henabled with hlevel | hlevel
  · have hcharge : t.ledger.charge c (t.ledger.originOf origin) n =
        ({ t.ledger with summary := t.ledger.summary.charge c n }, 0) := by
      simp [Ledger.charge, hlevel]
    rw [recordMalloc_summary hlevel, hcharge, Ledger.originOf_summary hlevel]
    exact recordMarked_of_ok hstate hresult
  · rw [Ledger.originOf_detail hlevel] at hsites hmarker ⊢
    obtain ⟨hstate', hresult'⟩ := SiteTable.allocate_of_fits (hsites hlevel) (hmarker hlevel)
    have hfirst : ((chargeRequester n c origin).run t).result =
        .ok (t.ledger.sites.charge (Ledger.requester origin c) n).2 := hresult'
    have hcharge : t.ledger.charge c origin n =
        ({ t.ledger with
            summary := t.ledger.summary.charge c n
            sites := (t.ledger.sites.charge (Ledger.requester origin c) n).1 },
          (t.ledger.sites.charge (Ledger.requester origin c) n).2) := by
      simp [Ledger.charge, hlevel]
    have hcharged : ((chargeRequester n c origin).run t).state =
        { t with ledger := { t.ledger with
            sites := (t.ledger.sites.charge (Ledger.requester origin c) n).1 } } := by
      rw [← hstate']
      rfl
    rw [recordMalloc_detail hlevel, hcharge, Op.state_bind_of_ok hfirst, Op.result_bind_of_ok hfirst,
      hcharged]
    exact recordMarked_of_ok hstate hresult

/-- A fresh block that is recorded was counted without a counter going round, and its requester has a
marker. -/
theorem fits_of_recordMalloc (hlength : t.ledger.level = .detail →
      t.ledger.sites.entries.length < 2 ^ 32) {p : UInt64}
    (h : ((recordMalloc outer n c origin).run t).result = .ok p) :
    t.ledger.Fits c (t.ledger.originOf origin) n ∧
      t.ledger.HasMarker c (t.ledger.originOf origin) := by
  have hmarked {t' : TrackedMemory} {origin : Origin} {marker : UInt32}
      (hresult : ((recordMarked outer n c origin marker).run t').result = .ok p) :
      t'.ledger.summary.Fits c n := by
    cases hsummary : ((MallocSummary.allocate c n).run t'.ledger.summary).result with
    | ok u => exact MallocSummary.fits_of_allocate hsummary
    | error e =>
      rw [(recordMarked_of_error rfl hsummary).2] at hresult
      cases hresult
  rcases summary_or_detail henabled with hlevel | hlevel
  · have hnot : t.ledger.level ≠ .detail := by
      rw [hlevel]
      decide
    rw [recordMalloc_summary hlevel] at h
    exact ⟨⟨hmarked h, fun hdetail => absurd hdetail hnot⟩, fun hdetail => absurd hdetail hnot⟩
  · rw [recordMalloc_detail hlevel] at h
    cases hsite : ((SiteTable.allocate (Ledger.requester origin c) n).run t.ledger.sites).result with
    | error e =>
      have hfirst : ((chargeRequester n c origin).run t).result = .error e := hsite
      rw [Op.result_bind_of_error hfirst] at h
      cases h
    | ok marker =>
      have hfirst : ((chargeRequester n c origin).run t).result = .ok marker := hsite
      rw [Op.result_bind_of_ok hfirst] at h
      obtain ⟨hfits, hplace⟩ := SiteTable.fits_of_allocate (hlength hlevel) hsite
      have hsummary := hmarked h
      rw [Ledger.originOf_detail hlevel]
      exact ⟨⟨hsummary, fun _ => hfits⟩, fun _ => hplace⟩

omit henabled in
/-- A fresh block is charged, recorded and written, or a counter goes round and nothing but counters
has changed. What memory holds plays no part in which of the two, nor in the charge. -/
theorem recordMalloc_uniform {l : Ledger} (henabled : l.enabled = true) (outer n : UInt64)
    (c : Category) (origin : Origin) :
    ∃ sites,
      (∃ marker, ((MallocSummary.allocate c n).run l.summary).result = .ok () ∧
        ∀ mem, ((recordMalloc outer n c origin).run ⟨l, mem⟩).state =
            install ⟨{ l with summary := ((MallocSummary.allocate c n).run l.summary).state, sites }, mem⟩
              outer ⟨n, c, l.originOf origin, marker⟩ ∧
          ((recordMalloc outer n c origin).run ⟨l, mem⟩).result = .ok (BlockHeader.innerOf outer)) ∨
      ∃ summary e,
        (summary = l.summary ∨ summary = ((MallocSummary.allocate c n).run l.summary).state ∧
          ((MallocSummary.allocate c n).run l.summary).result = .error e) ∧
          ∀ mem, ((recordMalloc outer n c origin).run ⟨l, mem⟩).state =
              ⟨{ l with summary, sites }, mem⟩ ∧
            ((recordMalloc outer n c origin).run ⟨l, mem⟩).result = .error e := by
  rcases summary_or_detail (t := ⟨l, .zero⟩) henabled with hlevel | hlevel
  · refine ⟨l.sites, ?_⟩
    have hcall (mem : Memory) : (recordMalloc outer n c origin).run ⟨l, mem⟩ =
        (recordMarked outer n c (l.originOf origin) 0).run ⟨l, mem⟩ := by
      rw [recordMalloc_summary (t := ⟨l, mem⟩) hlevel, Ledger.originOf_summary hlevel]
    rcases recordMarked_uniform l outer n c (l.originOf origin) 0 with ⟨hok, hrun⟩ |
      ⟨e, herror, hrun⟩
    · exact .inl ⟨0, hok, fun mem => hcall mem ▸ hrun mem⟩
    · exact .inr ⟨_, e, .inr ⟨rfl, herror⟩, fun mem => hcall mem ▸ hrun mem⟩
  · rw [Ledger.originOf_detail hlevel]
    refine ⟨((SiteTable.allocate (Ledger.requester origin c) n).run l.sites).state, ?_⟩
    cases hfirst : ((SiteTable.allocate (Ledger.requester origin c) n).run l.sites).result with
    | error e =>
      refine .inr ⟨l.summary, e, .inl rfl, fun mem => ?_⟩
      have hfirst : ((chargeRequester n c origin).run ⟨l, mem⟩).result = .error e := hfirst
      rw [recordMalloc_detail (t := ⟨l, mem⟩) hlevel, Op.state_bind_of_error hfirst,
        Op.result_bind_of_error hfirst]
      exact ⟨rfl, rfl⟩
    | ok marker =>
      have hcall (mem : Memory) :
          ((recordMalloc outer n c origin).run ⟨l, mem⟩).state =
            ((recordMarked outer n c origin marker).run
              ((chargeRequester n c origin).run ⟨l, mem⟩).state).state ∧
          ((recordMalloc outer n c origin).run ⟨l, mem⟩).result =
            ((recordMarked outer n c origin marker).run
              ((chargeRequester n c origin).run ⟨l, mem⟩).state).result := by
        have hfirst : ((chargeRequester n c origin).run ⟨l, mem⟩).result = .ok marker := hfirst
        rw [recordMalloc_detail (t := ⟨l, mem⟩) hlevel, Op.state_bind_of_ok hfirst,
          Op.result_bind_of_ok hfirst]
        exact ⟨rfl, rfl⟩
      rcases recordMarked_uniform
          { l with sites := ((SiteTable.allocate (Ledger.requester origin c) n).run l.sites).state }
          outer n c origin marker with ⟨hok, hrun⟩ | ⟨e, herror, hrun⟩
      · refine .inl ⟨marker, hok, fun mem => ?_⟩
        rw [(hcall mem).1, (hcall mem).2]
        exact hrun mem
      · refine .inr ⟨_, e, .inr ⟨rfl, herror⟩, fun mem => ?_⟩
        rw [(hcall mem).1, (hcall mem).2]
        exact hrun mem

/-- Where the summary has room, a fresh block is charged to it and recorded, or the requester's
counter goes round and nothing but that has changed. -/
theorem recordMalloc_of_summary (hf : t.ledger.summary.Fits c n) (outer : UInt64) (origin : Origin) :
    ∃ sites,
      (∃ marker,
        ((recordMalloc outer n c origin).run t).state =
            install { t with ledger := { t.ledger with
              summary := t.ledger.summary.charge c n, sites } } outer
              ⟨n, c, t.ledger.originOf origin, marker⟩ ∧
          ((recordMalloc outer n c origin).run t).result = .ok (BlockHeader.innerOf outer)) ∨
      ∃ e, ((recordMalloc outer n c origin).run t).state =
            { t with ledger := { t.ledger with sites } } ∧
          ((recordMalloc outer n c origin).run t).result = .error e := by
  obtain ⟨hcharge, hok⟩ := MallocSummary.allocate_of_fits hf
  obtain ⟨sites, ⟨marker, -, hrun⟩ | ⟨summary, e, hsummary, hrun⟩⟩ :=
    recordMalloc_uniform henabled outer n c origin
  · rw [hcharge] at hrun
    exact ⟨sites, .inl ⟨marker, hrun t.memory⟩⟩
  · obtain rfl | ⟨-, herror⟩ := hsummary
    · exact ⟨sites, .inr ⟨e, hrun t.memory⟩⟩
    · rw [hok] at herror
      cases herror

/-- A fresh block is recorded, or a counter goes round and nothing but counters has changed. -/
theorem recordMalloc_cases (outer n : UInt64) (c : Category) (origin : Origin) :
    ∃ summary sites,
      (∃ marker,
        ((recordMalloc outer n c origin).run t).state =
            install { t with ledger := { t.ledger with summary, sites } } outer
              ⟨n, c, t.ledger.originOf origin, marker⟩ ∧
          ((recordMalloc outer n c origin).run t).result = .ok (BlockHeader.innerOf outer)) ∨
      ∃ e, ((recordMalloc outer n c origin).run t).state =
            { t with ledger := { t.ledger with summary, sites } } ∧
          ((recordMalloc outer n c origin).run t).result = .error e := by
  obtain ⟨sites, ⟨marker, -, hrun⟩ | ⟨summary, e, -, hrun⟩⟩ :=
    recordMalloc_uniform henabled outer n c origin
  · exact ⟨_, sites, .inl ⟨marker, hrun t.memory⟩⟩
  · exact ⟨summary, sites, .inr ⟨e, hrun t.memory⟩⟩

/-- A fresh block is in the live table afterwards, or the table is as before. -/
theorem live_recordMalloc (outer n : UInt64) (c : Category) (origin : Origin) :
    ((recordMalloc outer n c origin).run t).state.ledger.live = t.ledger.live ∨
      ∃ b : LiveBlock, b.size = n ∧ ((recordMalloc outer n c origin).run t).state.ledger.live =
        t.ledger.live.insert (BlockHeader.innerOf outer) b := by
  obtain ⟨summary, sites, ⟨marker, hstate, -⟩ | ⟨e, hstate, -⟩⟩ :=
    recordMalloc_cases henabled outer n c origin
  · exact .inr ⟨_, rfl, congrArg (·.ledger.live) hstate⟩
  · exact .inl (congrArg (·.ledger.live) hstate)

theorem config_recordMalloc (outer n : UInt64) (c : Category) (origin : Origin) :
    ((recordMalloc outer n c origin).run t).state.ledger.config = t.ledger.config ∧
      ((recordMalloc outer n c origin).run t).state.ledger.reports = t.ledger.reports := by
  obtain ⟨summary, sites, ⟨marker, hstate, -⟩ | ⟨e, hstate, -⟩⟩ :=
    recordMalloc_cases henabled outer n c origin <;> rw [hstate] <;> exact ⟨rfl, rfl⟩

end recordMalloc

end TrackedMemory

end HostServices
