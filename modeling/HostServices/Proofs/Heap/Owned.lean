import HostServices.Proofs.BlockHeader
import HostServices.Proofs.Heap.Run
import HostServices.Proofs.Host.Contract

/-!
# The blocks that a heap has from its host

Each block in the early table, and the host block around each live one, is owned by the host, and
no host block is in both tables. Every call keeps this (`Heap.Sound.perform`), whatever pointers it
is given, so every run does: a block is only ever freed or resized while the host owns it.
-/

namespace HostServices

/-- The blocks in the early table and those around live blocks are among the blocks `B`. -/
structure Secured (B : Blocks) (early : EarlyBlocks) (live : AddressMap LiveBlock) : Prop where
  earlyOwned : ∀ {p}, early.contains p = true → B p ≠ none
  liveOwned : ∀ {p b}, live.get? p = some b →
    ∃ n, B (BlockHeader.outerOf p) = some n ∧ n.toNat = b.size.toNat + 18
  beside : ∀ {p b}, live.get? p = some b → early.contains (BlockHeader.outerOf p) = false

namespace Secured

open Blocks BlockHeader

variable {B B' : Blocks} {early : EarlyBlocks} {live : AddressMap LiveBlock} {p q n k : UInt64}
  {b : LiveBlock}

theorem empty (B : Blocks) : Secured B .empty .empty where
  earlyOwned h := nomatch h
  liveOwned h := nomatch h
  beside h := nomatch h

/-- The host block of a live block is owned. -/
theorem live_ne_none (h : Secured B early live) (hb : live.get? p = some b) : B (outerOf p) ≠ none := by
  obtain ⟨k, hk, -⟩ := h.liveOwned hb
  exact Option.ne_none_iff_exists'.2 ⟨k, hk⟩

theorem take (h : Secured B early live) (hq : B q = none) : Secured (B.take q n) early live where
  earlyOwned {p} hp := by
    have hne : p ≠ q := by
      rintro rfl
      exact h.earlyOwned hp hq
    rw [take_of_ne hne]
    exact h.earlyOwned hp
  liveOwned hb := by
    obtain ⟨k, hk, hsize⟩ := h.liveOwned hb
    refine ⟨k, ?_, hsize⟩
    rwa [take_of_ne fun heq => by rw [heq, hq] at hk; cases hk]
  beside := h.beside

/-- A request that takes nothing keeps all blocks. -/
theorem answered {answer : Option UInt64} (h : Secured B early live)
    (ha : B.Answered B n answer B') : Secured B' early live := by
  cases answer with
  | none => exact (show B' = B from ha) ▸ h
  | some q =>
    obtain ⟨hq, rfl⟩ := ha
    exact h.take hq

/-! ## Early blocks -/

theorem forget (h : Secured B early live) (hp : early.contains p = true) :
    Secured (B.drop p) (early.erase p) live where
  earlyOwned hq := by
    obtain ⟨hne, hq⟩ := EarlyBlocks.contains_erase.1 hq
    rw [drop_of_ne hne]
    exact h.earlyOwned hq
  liveOwned hb := by
    have hne : outerOf _ ≠ p := fun heq => by
      have := h.beside hb
      rw [heq, hp] at this
      cases this
    rw [drop_of_ne hne]
    exact h.liveOwned hb
  beside hb := by
    rw [Bool.eq_false_iff]
    intro hp
    have := h.beside hb
    rw [(EarlyBlocks.contains_erase.1 hp).2] at this
    cases this

theorem remember (h : Secured B early live) (hq : B q = none) :
    Secured (B.take q n) (early.insert q) live where
  earlyOwned hp := by
    rcases EarlyBlocks.contains_insert.1 hp with rfl | hp
    · simp
    · exact (h.take hq).earlyOwned hp
  liveOwned := (h.take hq).liveOwned
  beside hb := by
    rw [Bool.eq_false_iff]
    intro hp
    rcases EarlyBlocks.contains_insert.1 hp with heq | hp
    · obtain ⟨k, hk, -⟩ := h.liveOwned hb
      rw [heq, hq] at hk
      cases hk
    · rw [h.beside hb] at hp
      cases hp

/-! ## Live blocks -/

theorem eraseLive (h : Secured B early live) (p : UInt64) : Secured B early (live.erase p) where
  earlyOwned := h.earlyOwned
  liveOwned {q b} hb := by
    rw [AddressMap.get?_erase] at hb
    split at hb
    · cases hb
    · exact h.liveOwned hb
  beside {q b} hb := by
    rw [AddressMap.get?_erase] at hb
    split at hb
    · cases hb
    · exact h.beside hb

/-- Without its record, the host block of a live block may go. -/
theorem release (h : Secured B early live) (hp : live.get? p = some b) :
    Secured (B.drop (outerOf p)) early (live.erase p) where
  earlyOwned hq := by
    have hne : _ ≠ outerOf p := fun heq => by
      have := h.beside hp
      rw [← heq, hq] at this
      cases this
    rw [drop_of_ne hne]
    exact h.earlyOwned hq
  liveOwned {q b} hb := by
    have hne : outerOf q ≠ outerOf p := fun heq => by
      rw [outerOf_inj heq, AddressMap.get?_erase, if_pos rfl] at hb
      cases hb
    rw [drop_of_ne hne]
    exact (h.eraseLive p).liveOwned hb
  beside := (h.eraseLive p).beside

theorem record (h : Secured B early live) (hq : B q = none) (hn : n.toNat = b.size.toNat + 18) :
    Secured (B.take q n) early (live.insert (innerOf q) b) where
  earlyOwned := (h.take hq).earlyOwned
  liveOwned {p b'} hb := by
    rw [AddressMap.get?_insert] at hb
    split at hb
    · rename_i heq
      obtain rfl := Option.some.inj hb
      exact ⟨n, by rw [← heq, outerOf_innerOf, take_self], hn⟩
    · exact (h.take hq).liveOwned hb
  beside {p b'} hb := by
    rw [AddressMap.get?_insert] at hb
    split at hb
    · rename_i heq
      rw [← heq, outerOf_innerOf, Bool.eq_false_iff]
      exact fun hp => h.earlyOwned hp hq
    · exact h.beside hb

end Secured

/-! ## Changes keep it -/

section change

variable {σ : Type} [HostAllocator σ] {R : HostContract σ} {K : Set SiteKey}

theorem EarlyHeap.Change.secured {h e : EarlyHeap σ} {live : AddressMap LiveBlock}
    (he : h.Change e) (hvalid : R.Valid h.machine.host)
    (hs : Secured (R.owned h.machine.host) h.blocks live) :
    R.Valid e.machine.host ∧ Secured (R.owned e.machine.host) e.blocks live := by
  cases he with
  | idle => exact ⟨hvalid, hs⟩
  | @refused n m m' _ hm hn hcall =>
    obtain ⟨hvalid', ha⟩ := R.of_malloc hvalid hm hn hcall
    exact ⟨hvalid', hs.answered ha⟩
  | @unresized p n m m' _ hm hp hn hcall =>
    obtain ⟨hvalid', howned⟩ := R.of_realloc hvalid hm (hs.earlyOwned hp) hn hcall
    refine ⟨hvalid', ?_⟩
    show Secured (R.owned m'.host) h.blocks live
    rw [show R.owned m'.host = R.owned h.machine.host from howned]
    exact hs
  | @resized p q n m m' _ hm hp hn hcall =>
    obtain ⟨hvalid', hq, howned⟩ := R.of_realloc hvalid hm (hs.earlyOwned hp) hn hcall
    refine ⟨hvalid', ?_⟩
    show Secured (R.owned m'.host) ((h.blocks.erase p).insert q) live
    rw [howned]
    exact (hs.forget hp).remember hq
  | @released p m _ hm hp =>
    obtain ⟨hvalid', howned⟩ := R.of_free hvalid hm (hs.earlyOwned hp)
    refine ⟨hvalid', ?_⟩
    show Secured (R.owned (HostAllocator.free p m).host) (h.blocks.erase p) live
    rw [howned]
    exact hs.forget hp

/-- The length of the host block for `n` bytes, if blocks are tracked. -/
theorem Ledger.toNat_of_overhead {l : Ledger} {n outerSize : UInt64} (henabled : l.enabled = true)
    (hsize : Word.add? n l.overhead = some outerSize) : outerSize.toNat = n.toNat + 18 := by
  rw [(Word.toNat_of_add? hsize).1, overhead, if_pos henabled]
  rfl

/-- A fresh block is recorded, or is left to the host and in no table. -/
theorem Secured.recordMalloc {B : Blocks} {early : EarlyBlocks} {t : TrackedMemory}
    {outer outerSize n : UInt64} (henabled : t.ledger.enabled = true)
    (hs : Secured B early t.ledger.live) (houter : B outer = none)
    (hsize : Word.add? n t.ledger.overhead = some outerSize) (c : Category) (origin : Origin) :
    Secured (B.take outer outerSize) early
      ((TrackedMemory.recordMalloc outer n c origin).run t).state.ledger.live := by
  have hlength : outerSize.toNat = n.toNat + 18 := Ledger.toNat_of_overhead henabled hsize
  obtain hlive | ⟨b, rfl, hlive⟩ := TrackedMemory.live_recordMalloc henabled outer n c origin
  · rw [hlive]
    exact hs.take houter
  · rw [hlive]
    exact hs.record houter hlength

theorem LedgerHeap.Change.secured {h h' : LedgerHeap σ} (hh : h.Change K h')
    (henabled : h.ledger.enabled = true) (hvalid : R.Valid h.early.machine.host)
    (hs : Secured (R.owned h.early.machine.host) h.early.blocks h.ledger.live) :
    R.Valid h'.early.machine.host ∧
      Secured (R.owned h'.early.machine.host) h'.early.blocks h'.ledger.live := by
  cases hh with
  | early he => exact he.secured hvalid hs
  | rejected => exact ⟨hvalid, hs⟩
  | condemned => exact ⟨hvalid, hs.eraseLive _⟩
  | @allocated n outerSize outer c origin m m' _ hK hm hn hsize hlimit hcall =>
    obtain ⟨hvalid', houter, howned⟩ :=
      R.of_malloc hvalid hm (Word.pos_of_add? hsize hn) hcall
    refine ⟨hvalid', ?_⟩
    show Secured (R.owned m'.host) h.early.blocks _
    rw [howned]
    exact hs.recordMalloc (t := ⟨h.ledger, m'.memory⟩) henabled houter hsize c origin
  | @unresized p outerSize b m m' _ hm hlive hn hcall =>
    obtain ⟨hvalid', howned⟩ := R.of_realloc hvalid hm (hs.live_ne_none hlive) hn hcall
    refine ⟨hvalid', ?_⟩
    show Secured (R.owned m'.host) h.early.blocks h.ledger.live
    rw [show R.owned m'.host = R.owned h.early.machine.host from howned]
    exact hs
  | @resized p n outerSize outer b origin m m' _ found hK hm hlive hn hsize hlimit hcall hfound =>
    obtain ⟨hvalid', houter, howned⟩ :=
      R.of_realloc hvalid hm (hs.live_ne_none hlive) (Word.pos_of_add? hsize hn) hcall
    refine ⟨hvalid', ?_⟩
    show Secured (R.owned m'.host) h.early.blocks _
    rw [howned]
    exact (hs.release hlive).recordMalloc (t := ⟨h.ledger.retire p b, m'.memory⟩) henabled houter
      hsize b.category origin
  | @released p b m _ hm hlive =>
    obtain ⟨hvalid', howned⟩ := R.of_free hvalid hm (hs.live_ne_none hlive)
    refine ⟨hvalid', ?_⟩
    show Secured (R.owned (HostAllocator.free (BlockHeader.outerOf p) m).host) h.early.blocks _
    rw [howned]
    exact hs.release hlive

theorem LedgerHeap.Change.config {h h' : LedgerHeap σ} (hh : h.Change K h')
    (henabled : h.ledger.enabled = true) : h'.ledger.config = h.ledger.config := by
  cases hh with
  | early => rfl
  | rejected => rfl
  | condemned => rfl
  | @allocated n outerSize outer c origin m m' =>
    exact (TrackedMemory.config_recordMalloc (t := ⟨h.ledger, m'.memory⟩) henabled outer n c origin).1
  | unresized => rfl
  | @resized p n outerSize outer b origin m m' =>
    exact (TrackedMemory.config_recordMalloc (t := ⟨h.ledger.retire p b, m'.memory⟩) henabled outer n
      b.category origin).1
  | released => rfl

namespace Heap

variable {h h' : Heap σ}

/-- The live blocks; there are none without a ledger. -/
def live : Heap σ → AddressMap LiveBlock
  | early _ => .empty
  | ready h => h.ledger.live

/-- The heap relies on nothing but blocks that the host owns. -/
structure Sound (R : HostContract σ) (h : Heap σ) : Prop where
  enabled : h.Enabled
  valid : R.Valid h.base.machine.host
  secured : Secured (R.owned h.base.machine.host) h.base.blocks h.live

theorem sound_create {m : Machine σ} (hvalid : R.Valid m.host) : (create m).Sound R where
  enabled := enabled_early _
  valid := hvalid
  secured := Secured.empty _

theorem Sound.change (hs : h.Sound R) (hh : h.Change K h') : h'.Sound R := by
  obtain ⟨henabled, hvalid, hsecured⟩ := hs
  cases hh with
  | @early e e' he =>
    have hsecured : Secured (R.owned e.machine.host) e.blocks .empty := hsecured
    have he := he.secured hvalid hsecured
    exact ⟨enabled_early e', he.1, he.2⟩
  | @granted e p n m m' _ hm hn hcall =>
    have hvalid : R.Valid e.machine.host := hvalid
    have hsecured : Secured (R.owned e.machine.host) e.blocks .empty := hsecured
    obtain ⟨hvalid', hp, howned⟩ := R.of_malloc hvalid hm hn hcall
    refine ⟨enabled_early _, hvalid', ?_⟩
    show Secured (R.owned m'.host) (e.blocks.insert p) .empty
    rw [howned]
    exact hsecured.remember hp
  | installed _ henabled' =>
    exact ⟨fun l hl => Option.some.inj hl ▸ henabled', hvalid, hsecured⟩
  | @ready h h' hh =>
    have henabled : h.ledger.enabled = true := henabled _ rfl
    have hh' := hh.secured (h := h) henabled hvalid hsecured
    refine ⟨fun l hl => ?_, hh'.1, hh'.2⟩
    obtain rfl := Option.some.inj hl
    rw [Ledger.enabled, Ledger.level, hh.config henabled]
    exact henabled

theorem Sound.perform (hs : h.Sound R) {call : HeapCall} (hproper : call.Proper h) :
    (call.perform h).Sound R :=
  hs.change (call.perform_change hs.enabled hproper)

theorem Sound.run (hs : h.Sound R) {calls : List HeapCall} (hproper : HeapCall.ProperRun calls h) :
    (HeapCall.run calls h).Sound R := by
  induction calls generalizing h with
  | nil => exact hs
  | cons call calls ih => exact ih (hs.perform hproper.1) hproper.2

end Heap

end change

end HostServices
