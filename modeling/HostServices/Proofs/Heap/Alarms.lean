import HostServices.Proofs.Heap.Intact

/-!
# No false alarms

As long as users write to the bytes of their own blocks only, every live block passes its check
after every call over a careful host (`Heap.Unharmed.run`). What is reported is then the caller's
doing: a release of a block in use and a resize that keeps its category report nothing
(`no_false_alarms`).
-/

namespace HostServices

open Memory (InRange)

namespace Heap

variable {σ : Type} [HostAllocator σ] {R : HostContract σ} {h : Heap σ} {p : UInt64}

/-- A block that is in use: it is from before the ledger, or it has a record. -/
def InUse (h : Heap σ) (p : UInt64) : Prop :=
  h.base.blocks.contains p = true ∨ ∃ b, h.live.get? p = some b

/-- An address among the user's bytes of a block. -/
def Lent (R : HostContract σ) (h : Heap σ) (a : UInt64) : Prop :=
  (∃ p b, h.live.get? p = some b ∧ InRange p b.size.toNat a) ∨
    ∃ p n, h.base.blocks.contains p = true ∧ R.owned h.base.machine.host p = some n ∧
      InRange p n.toNat a

/-- A sound heap whose live blocks all pass their checks. -/
structure Unharmed (R : HostContract σ) (h : Heap σ) : Prop extends h.Sound R where
  intact : Intact h.memory h.live

theorem unharmed_create {m : Machine σ} (hvalid : R.Valid m.host) : (create m).Unharmed R where
  toSound := sound_create hvalid
  intact := intact_empty _

theorem Unharmed.good (hu : h.Unharmed R) (hp : h.InUse p) : h.Good p :=
  hp.imp_right fun ⟨b, hb⟩ => ⟨b, hb, hu.intact hb⟩

theorem Sound.quiet_overwrite (hs : h.Sound R) {mem : Memory}
    (hlent : ∀ a, mem a ≠ h.memory a → h.Lent R a) : h.Quiet (h.setMemory mem) := by
  cases h with
  | early e => exact quiet_early e _
  | ready l => exact ⟨rfl, fun hintact => hintact.write hs.secured (R.apart hs.valid) hlent⟩

end Heap

namespace HeapCall

variable {σ : Type} [HostAllocator σ] {R : HostContract σ} {h : Heap σ}

/-- What users write is among the bytes of their blocks, and texts that are copied have a length. -/
def Tame (R : HostContract σ) : HeapCall → Heap σ → Prop
  | overwrite mem, h => ∀ a, mem a ≠ h.memory a → h.Lent R a
  | duplicate text _ _, _ => text.length + 1 < 2 ^ 64
  | _, _ => True

/-- Each call is tame when it is made. -/
def TameRun (R : HostContract σ) : List HeapCall → Heap σ → Prop
  | [], _ => True
  | call :: calls, h => call.Tame R h ∧ TameRun R calls (call.perform h)

/-- A block that is released is in use, and one that is resized keeps its category. -/
def Rightful : HeapCall → Heap σ → Prop
  | free (some p), h => h.InUse p
  | realloc (some p) _ c _, h => h.InUse p ∧ ∀ b, h.live.get? p = some b → b.category = c
  | _, _ => True

theorem tameRun_append {first second : List HeapCall} :
    TameRun R (first ++ second) h ↔ TameRun R first h ∧ TameRun R second (run first h) := by
  induction first generalizing h with
  | nil => exact ⟨fun h => ⟨trivial, h⟩, And.right⟩
  | cons call first ih =>
    show call.Tame R h ∧ TameRun R (first ++ second) (call.perform h) ↔
      (call.Tame R h ∧ TameRun R first (call.perform h)) ∧ _
    rw [ih, and_assoc]
    rfl

end HeapCall

namespace Heap

section run

variable {σ : Type} [HostAllocator σ] {R : HostContract σ} {h : Heap σ}

/-- What is not longer than a block and is written to its start is among the user's bytes. -/
theorem lent_of_write {p : UInt64} {b : LiveBlock} {bs : Array UInt8} (hb : h.live.get? p = some b)
    (hsize : bs.size ≤ b.size.toNat) {a : UInt64} (ha : h.memory.write p bs a ≠ h.memory a) :
    h.Lent R a := by
  refine .inl ⟨p, b, hb, ?_⟩
  by_contra hout
  exact ha (Memory.write_of_not_inRange fun hin => hout (Nat.lt_of_lt_of_le hin hsize))

variable (hcareful : R.Careful)
include hcareful

theorem Sound.quiet_duplicate (hs : h.Sound R) {text : List UInt8}
    (hlength : text.length + 1 < 2 ^ 64) (c : Category) (origin : Origin) :
    h.Quiet ((HeapCall.duplicate text c origin).perform h) := by
  have hsize : (UInt64.ofNat (text ++ [0]).length).toNat = (text ++ [0]).toArray.size :=
    UInt64.toNat_ofNat_of_lt' (by simpa using hlength)
  show h.Quiet ((Heap.duplicate text c origin).run h).state
  unfold Heap.duplicate
  dsimp only
  generalize UInt64.ofNat (text ++ [0]).length = n at hsize ⊢
  have hs' : ((HeapCall.malloc n c origin).perform h).Sound R := hs.perform trivial
  have hquiet := quiet_malloc hcareful hs n c origin
  cases hresult : ((Heap.malloc n c origin).run h).result with
  | error e =>
    rw [Op.state_bind_of_error hresult]
    exact hquiet
  | ok answer =>
    rw [Op.state_bind_of_ok hresult]
    cases answer with
    | none => exact hquiet
    | some p =>
      cases h with
      | early e => exact quiet_early e _
      | ready l =>
        obtain ⟨b, hb, hb'⟩ : ∃ b, ((HeapCall.malloc n c origin).perform (.ready l)).live.get? p =
            some b ∧ b.size = Word.max n 1 := LedgerHeap.live_malloc hcareful hs hresult
        have hfits : (text ++ [0]).toArray.size ≤ b.size.toNat := by
          rw [hb', Word.toNat_max, ← hsize]
          exact Nat.le_max_left ..
        exact hquiet.trans (hs'.quiet_overwrite fun a ha => lent_of_write hb hfits ha)

theorem Unharmed.perform (hu : h.Unharmed R) {call : HeapCall} (hproper : call.Proper h)
    (htame : call.Tame R h) : (call.perform h).Unharmed R := by
  refine ⟨hu.toSound.perform hproper, ?_⟩
  cases call with
  | malloc n c origin => exact (quiet_malloc hcareful hu.toSound n c origin).intact hu.intact
  | duplicate text c origin => exact (hu.toSound.quiet_duplicate hcareful htame c origin).intact hu.intact
  | realloc p n c origin =>
    cases h with
    | early e => exact intact_empty _
    | ready l =>
      cases p with
      | none => exact (LedgerHeap.quiet_malloc hcareful hu.toSound n c origin).intact hu.intact
      | some p => exact LedgerHeap.intact_after_realloc hcareful hu.toSound hu.intact p n c origin
  | free p =>
    cases h with
    | early e => exact intact_empty _
    | ready l =>
      cases p with
      | none => exact hu.intact
      | some p => exact LedgerHeap.intact_after_free hcareful hu.toSound hu.intact p
  | install config policy =>
    cases h with
    | early e => exact intact_empty _
    | ready l => exact hu.intact
  | overwrite mem => exact (hu.toSound.quiet_overwrite htame).intact hu.intact

theorem Unharmed.run (hu : h.Unharmed R) {calls : List HeapCall}
    (hproper : HeapCall.ProperRun calls h) (htame : HeapCall.TameRun R calls h) :
    (HeapCall.run calls h).Unharmed R := by
  induction calls generalizing h with
  | nil => exact hu
  | cons call calls ih => exact ih (hu.perform hcareful hproper.1 htame.1) hproper.2 htame.2

/-- A rightful call has nothing to report. -/
theorem Unharmed.reports_perform (hu : h.Unharmed R) {call : HeapCall} (htame : call.Tame R h)
    (hrightful : call.Rightful h) : (call.perform h).reports = h.reports := by
  cases call with
  | malloc n c origin => exact (quiet_malloc hcareful hu.toSound n c origin).reports
  | duplicate text c origin => exact (hu.toSound.quiet_duplicate hcareful htame c origin).reports
  | realloc p n c origin =>
    cases p with
    | none =>
      cases h with
      | early e => rfl
      | ready l => exact (LedgerHeap.quiet_malloc hcareful hu.toSound n c origin).reports
    | some p =>
      exact ((hu.good hrightful.1).realloc hcareful hu.toSound hrightful.2 n origin).reports
  | free p =>
    cases p with
    | none => cases h <;> rfl
    | some p => exact ((hu.good hrightful).free hcareful hu.toSound).1.reports
  | install config policy => cases h <;> rfl
  | overwrite mem => cases h <;> rfl

end run

/-- Over a careful host, whatever is allocated, resized and released in which order, and whatever
users write to their own bytes: a release of a block in use and a resize that keeps its category
report no corruption, and the header and the footer of every live block agree with its record. -/
theorem no_false_alarms {σ : Type} [HostAllocator σ] (R : HostContract σ) (hcareful : R.Careful) {m : Machine σ}
    (hvalid : R.Valid m.host) (calls : List HeapCall) (hproper : HeapCall.ProperRun calls (create m))
    (htame : HeapCall.TameRun R calls (create m)) :
    (∀ before call after, calls = before ++ call :: after →
      call.Rightful (HeapCall.run before (create m)) →
        (call.perform (HeapCall.run before (create m))).reports =
          (HeapCall.run before (create m)).reports) ∧
    Intact (HeapCall.run calls (create m)).memory (HeapCall.run calls (create m)).live := by
  refine ⟨fun before call after hcalls hrightful => ?_,
    ((unharmed_create hvalid).run hcareful hproper htame).intact⟩
  subst hcalls
  have hbefore := (HeapCall.properRun_append.1 hproper).1
  obtain ⟨htameBefore, htameCall, -⟩ := HeapCall.tameRun_append.1 htame
  have hu := (unharmed_create hvalid).run hcareful hbefore htameBefore
  exact hu.reports_perform hcareful htameCall hrightful

/-- The allocator without reuse, with nothing in memory. -/
def emptyMachine : Machine FreshAllocator :=
  ⟨{}, Memory.zero⟩

/-- A block from before the ledger, and one with a record. -/
def twoBlocks : List HeapCall :=
  [.malloc 24 .gc ⟨⟨"src/boot.rs", 3, 5⟩, .empty⟩, .install { tracking := .detail } .keep,
    .malloc 40 .compiler ⟨⟨"src/jit.rs", 7, 9⟩, .empty⟩]

/-- The block with a record is written to; it is to grow, then to grow too much, then to shrink, and
a text is copied. -/
def busyRun : List HeapCall :=
  twoBlocks ++
    [.overwrite ((HeapCall.run twoBlocks (create emptyMachine)).memory.write 0x100000000030
      #[104, 111, 115, 116]),
    .realloc (some 0x100000000030) 60 .compiler ⟨⟨"src/jit.rs", 8, 9⟩, .empty⟩,
    .realloc (some 0x100000000070) 0x200000000000 .compiler ⟨⟨"src/jit.rs", 9, 9⟩, .empty⟩,
    .realloc (some 0x100000000070) 20 .compiler ⟨⟨"src/jit.rs", 10, 9⟩, .empty⟩,
    .duplicate [104, 105] .gc ⟨⟨"src/boot.rs", 4, 5⟩, .empty⟩, .free (some 0x1000000000c0)]

set_option maxRecDepth 2000 in
theorem no_false_alarms_busyRun :
    FreshAllocator.contract.Valid {} ∧ FreshAllocator.contract.Careful ∧
      HeapCall.ProperRun busyRun (create emptyMachine) ∧
      HeapCall.TameRun FreshAllocator.contract busyRun (create emptyMachine) ∧
      (∀ before call after, busyRun = before ++ call :: after →
        call.Rightful (HeapCall.run before (create emptyMachine)) →
          (call.perform (HeapCall.run before (create emptyMachine))).reports =
            (HeapCall.run before (create emptyMachine)).reports) ∧
      (HeapCall.free (some 0x1000000000c0)).Rightful
        (HeapCall.run busyRun.dropLast (create emptyMachine)) := by
  have hvalid : FreshAllocator.contract.Valid {} := FreshAllocator.wellFormed_empty
  have hcareful := FreshAllocator.careful_contract
  have hproper : HeapCall.ProperRun busyRun (create emptyMachine) :=
    ⟨trivial, rfl, trivial, trivial, trivial, trivial, trivial, trivial, trivial, trivial⟩
  have hwrite (a : UInt64)
      (ha : (HeapCall.run twoBlocks (create emptyMachine)).memory.write 0x100000000030
        #[104, 111, 115, 116] a ≠ (HeapCall.run twoBlocks (create emptyMachine)).memory a) :
      (HeapCall.run twoBlocks (create emptyMachine)).Lent FreshAllocator.contract a := by
    have hsize : ((HeapCall.run twoBlocks (create emptyMachine)).live.get? 0x100000000030).map
        (·.size) = some 40 := by decide +kernel
    obtain ⟨b, hb, hsize⟩ := Option.map_eq_some_iff.1 hsize
    exact lent_of_write hb (by rw [hsize]; decide) ha
  have htame : HeapCall.TameRun FreshAllocator.contract busyRun (create emptyMachine) :=
    ⟨trivial, trivial, trivial, hwrite, trivial, trivial, trivial,
      show 2 + 1 < 2 ^ 64 by decide, trivial, trivial⟩
  have hlive : ((HeapCall.run busyRun.dropLast (create emptyMachine)).live.get?
      0x1000000000c0).isSome = true := by decide +kernel
  exact ⟨hvalid, hcareful, hproper, htame,
    (no_false_alarms FreshAllocator.contract hcareful (m := emptyMachine) hvalid busyRun hproper htame).1,
    .inr (Option.isSome_iff_exists.1 hlive)⟩

end Heap

end HostServices
