import HostServices.Proofs.Heap.Owned
import HostServices.Proofs.Host.Fresh
import HostServices.Proofs.Ledger.Turn

/-!
# The counters of a heap

The host blocks around live blocks lie beside each other in memory, so a fresh one can always be
counted in words (`Secured.room`). A call therefore turns the ledger without a counter going round
(`LedgerHeap.Change.turns`), and its counters stand for the live blocks after every call
(`counters_tally_live`).
-/

namespace HostServices

open BlockHeader (outerOf innerOf outerOf_innerOf innerOf_outerOf)
open LiveBlock (Room)

/-- Ranges one after another are not longer than what they lie in. -/
theorem sum_le_of_pairwise {α : Type} {l : List α} (start length : α → Nat) {low high : Nat}
    (hrange : low ≤ high) (hlow : ∀ x ∈ l, low ≤ start x) (hhigh : ∀ x ∈ l, start x + length x ≤ high)
    (hnext : l.Pairwise fun x y => start x + length x ≤ start y) :
    low + (l.map length).sum ≤ high := by
  induction l generalizing low with
  | nil => exact hrange
  | cons x xs ih =>
    obtain ⟨hx, hxs⟩ := List.pairwise_cons.1 hnext
    have hrest := ih (hhigh x List.mem_cons_self) hx
      (fun y hy => hhigh y (List.mem_cons_of_mem x hy)) hxs
    have hstart := hlow x List.mem_cons_self
    rw [List.map_cons, List.sum_cons]
    omega

/-! ## Room for a fresh block -/

namespace Secured

variable {B : Blocks} {early : EarlyBlocks} {live : AddressMap LiveBlock}
  {p outer outerSize : UInt64} {b : LiveBlock}

/-- Where a live block is in its host block. -/
theorem place (h : Secured B early live) (hB : B.Apart) (hb : live.get? p = some b) :
    ∃ k, B (outerOf p) = some k ∧ k.toNat = b.size.toNat + 18 ∧ p.toNat = (outerOf p).toNat + 16 := by
  obtain ⟨k, hk, hsize⟩ := h.liveOwned hb
  have hfits := hB.fits hk
  have hinner : (outerOf p + BlockHeader.headerSize).toNat = (outerOf p).toNat + 16 :=
    Word.toNat_add_of_lt (show (outerOf p).toNat + 16 < 2 ^ 64 by omega)
  exact ⟨k, hk, hsize, (congrArg UInt64.toNat (innerOf_outerOf p)).symm.trans hinner⟩

/-- The live blocks and what is around them fit in memory together. -/
theorem sum_le (h : Secured B early live) (hB : B.Apart) :
    (live.values.map fun b => b.size.toNat + 18).sum ≤ 2 ^ 64 := by
  have hsum : 0 + (live.toList.map fun e => e.2.size.toNat + 18).sum ≤ 2 ^ 64 := by
    refine sum_le_of_pairwise (fun e => (outerOf e.1).toNat) _ (Nat.zero_le _)
      (fun _ _ => Nat.zero_le _) (fun e he => ?_)
      (AddressMap.pairwise_iff.2 fun x hx y hy hlt => ?_)
    · obtain ⟨k, hk, hsize, -⟩ := h.place hB (AddressMap.get?_of_mem he)
      rw [← hsize]
      exact hB.fits hk
    · obtain ⟨k, hk, hsize, hx⟩ := h.place hB (AddressMap.get?_of_mem hx)
      obtain ⟨k', hk', -, hy⟩ := h.place hB (AddressMap.get?_of_mem hy)
      have hlt := UInt64.lt_iff_toNat_lt.1 hlt
      have hne : outerOf x.1 ≠ outerOf y.1 := fun heq => by
        rw [hx, hy, heq] at hlt
        exact Nat.lt_irrefl _ hlt
      have hbeside := hB.beside hk hk' hne
      omega
  rw [AddressMap.values, List.map_map]
  rwa [Nat.zero_add] at hsum

/-- A fresh host block has no record, and can be counted along with those that have one. -/
theorem room (h : Secured B early live) (houter : B outer = none)
    (hB : (B.take outer outerSize).Apart) (hsize : outerSize.toNat = b.size.toNat + 18) :
    live.get? (innerOf outer) = none ∧ Room live.values b.size := by
  have hfresh : live.get? (innerOf outer) = none := by
    rw [Option.eq_none_iff_forall_ne_some]
    intro b hb
    obtain ⟨k, hk, -⟩ := h.liveOwned hb
    rw [outerOf_innerOf, houter] at hk
    cases hk
  have hsum := (h.record houter hsize).sum_le hB
  rw [((AddressMap.values_insert_perm hfresh).map _).sum_eq, List.map_cons, List.sum_cons,
    List.sum_map_add, List.map_const', List.sum_replicate_nat] at hsum
  exact ⟨hfresh, by omega, by omega⟩

end Secured

/-! ## Calls turn the ledger -/

section turns

variable {K : Set SiteKey} {keys : Finset SiteKey}

/-- A fresh block is entered without a counter going round. -/
theorem Secured.turn_recordMalloc {B : Blocks} {early : EarlyBlocks} {t : TrackedMemory}
    {outer outerSize n : UInt64} {c : Category} {origin : Origin}
    (henabled : t.ledger.enabled = true) (hs : Secured B early t.ledger.live)
    (hbalanced : t.ledger.Balanced keys) (hcard : keys.card < 2 ^ 32) (hkeys : K ⊆ keys)
    (houter : B outer = none) (hB : (B.take outer outerSize).Apart)
    (hsize : Word.add? n t.ledger.overhead = some outerSize)
    (hK : Ledger.requester origin c ∈ K) :
    t.ledger.Turn K ((TrackedMemory.recordMalloc outer n c origin).run t).state.ledger := by
  have hlength : outerSize.toNat = n.toNat + 18 := Ledger.toNat_of_overhead henabled hsize
  obtain ⟨hfresh, hroom⟩ := hs.room (b := ⟨n, c, origin, 0⟩) houter hB hlength
  have hfits := hbalanced.tallies.fits hroom c (t.ledger.originOf origin)
  have hrequester (hdetail : t.ledger.level = .detail) :
      Ledger.requester (t.ledger.originOf origin) c ∈ K := by
    rwa [Ledger.originOf_detail hdetail]
  have hmarker := hbalanced.hasMarker hcard fun hdetail => hkeys (hrequester hdetail)
  rw [(TrackedMemory.recordMalloc_of_fits henabled hfits hmarker).1]
  show t.ledger.Turn K { (t.ledger.charge c (t.ledger.originOf origin) n).1 with
    live := (t.ledger.charge c (t.ledger.originOf origin) n).1.live.insert (innerOf outer) _ }
  rw [Ledger.live_charge]
  exact .entered hrequester hfresh hfits

variable {σ : Type}

/-- If there is a ledger, its counters stand for the live blocks. -/
def Heap.Balanced (keys : Finset SiteKey) (h : Heap σ) : Prop :=
  ∀ l, h.ledger? = some l → l.Balanced keys

theorem Heap.balanced_early (e : EarlyHeap σ) : Balanced keys (.early e) :=
  fun _ hl => absurd hl (Option.some_ne_none _).symm

variable [HostAllocator σ] {R : HostContract σ}

theorem LedgerHeap.Change.turns {h h' : LedgerHeap σ} (hh : h.Change K h')
    (henabled : h.ledger.enabled = true) (hvalid : R.Valid h.early.machine.host)
    (hs : Secured (R.owned h.early.machine.host) h.early.blocks h.ledger.live)
    (hbalanced : h.ledger.Balanced keys) (hcard : keys.card < 2 ^ 32) (hkeys : K ⊆ keys) :
    Relation.ReflTransGen (Ledger.Turn K) h.ledger h'.ledger := by
  cases hh with
  | early => exact .refl
  | rejected => exact .single (.reported _)
  | condemned _ hc hlive =>
    exact .head (.retired hlive (hbalanced.covers hlive)) (.single (.reported _))
  | @allocated n outerSize outer c origin m m' _ hK hm hn hsize hlimit hcall =>
    obtain ⟨hvalid', houter, howned⟩ :=
      R.of_malloc hvalid hm (Word.pos_of_add? hsize hn) hcall
    have hB := R.apart hvalid'
    rw [howned] at hB
    exact .single (hs.turn_recordMalloc (t := ⟨h.ledger, m'.memory⟩) henabled hbalanced hcard hkeys
      houter hB hsize hK)
  | unresized => exact .refl
  | @resized p n outerSize outer b origin m m' _ found hK hm hlive hn hsize hlimit hcall hfound =>
    obtain ⟨hvalid', houter, howned⟩ :=
      R.of_realloc hvalid hm (hs.live_ne_none hlive) (Word.pos_of_add? hsize hn) hcall
    have hB := R.apart hvalid'
    rw [howned] at hB
    have hrecord := (hs.release hlive).turn_recordMalloc (t := ⟨h.ledger.retire p b, m'.memory⟩)
      henabled (hbalanced.retire hlive) hcard hkeys houter hB hsize hK
    exact .head (.retired hlive (hbalanced.covers hlive)) (.head hrecord (.single (.reported found)))
  | released _ hm hlive => exact .single (.retired hlive (hbalanced.covers hlive))

namespace Heap

variable {h h' : Heap σ}

theorem Balanced.turns (hbalanced : h.Balanced keys) (hs : h.Sound R) (hcard : keys.card < 2 ^ 32)
    (hK : K ⊆ keys) (hh : h.Change K h') {l l' : Ledger} (hl : h.ledger? = some l) (hl' : h'.ledger? = some l') :
    Relation.ReflTransGen (Ledger.Turn K) l l' := by
  cases hh with
  | early => cases hl
  | granted => cases hl
  | installed => cases hl
  | ready hh =>
    obtain rfl := Option.some.inj hl
    obtain rfl := Option.some.inj hl'
    exact hh.turns (hs.enabled _ rfl) hs.valid hs.secured (hbalanced _ rfl) hcard hK

theorem Balanced.change (hbalanced : h.Balanced keys) (hs : h.Sound R) (hcard : keys.card < 2 ^ 32)
    (hK : K ⊆ keys) (hh : h.Change K h') : h'.Balanced keys := by
  intro l' hl'
  have hturns {l : Ledger} (hl : h.ledger? = some l) : l'.Balanced keys :=
    (hbalanced l hl).turns hcard hK (hbalanced.turns hs hcard hK hh hl hl')
  cases hh with
  | early => cases hl'
  | granted => cases hl'
  | installed =>
    obtain rfl := Option.some.inj hl'
    exact Ledger.balanced_fresh keys _ _
  | ready => exact hturns rfl

theorem Balanced.run (hbalanced : h.Balanced keys) (hs : h.Sound R) (hcard : keys.card < 2 ^ 32)
    {calls : List HeapCall} (hkeys : ∀ call ∈ calls, call.requesters ⊆ keys)
    (hproper : HeapCall.ProperRun calls h) : (HeapCall.run calls h).Balanced keys := by
  induction calls generalizing h with
  | nil => exact hbalanced
  | cons call calls ih =>
    obtain ⟨hcall, hcalls⟩ := hproper
    have hchange := call.perform_change hs.enabled hcall
    refine ih (hbalanced.change hs hcard (hkeys call List.mem_cons_self) hchange)
      (hs.perform hcall) (fun call' hcall' => hkeys call' (List.mem_cons_of_mem call hcall')) hcalls

end Heap

end turns

/-! ## The counters after each call -/

/-- Those for whom some calls make requests. -/
def HeapCall.requestersOf (calls : List HeapCall) : Finset SiteKey :=
  (calls.filterMap requester?).toFinset

theorem HeapCall.requesters_subset {call : HeapCall} {calls : List HeapCall} (h : call ∈ calls) :
    call.requesters ⊆ requestersOf calls :=
  fun _ hkey => List.mem_toFinset.2 (List.mem_filterMap.2 ⟨call, h, hkey⟩)

namespace Heap

/-- Whatever a heap is asked for and whatever is written into memory, after every call the counters
of each category, of all blocks and, at the level of call sites, of each requester say how many
live blocks there are and how long they are together; and no call makes a counter go round. -/
theorem counters_tally_live {σ : Type} [HostAllocator σ] (R : HostContract σ) {m : Machine σ}
    (hvalid : R.Valid m.host) (calls : List HeapCall) (hproper : HeapCall.ProperRun calls (create m))
    (hcard : (HeapCall.requestersOf calls).card < 2 ^ 32) :
    (∀ before after, calls = before ++ after →
      ∀ l, (HeapCall.run before (create m)).ledger? = some l → l.Tallies l.live.values) ∧
    ∀ before call after, calls = before ++ call :: after →
      ∀ l l', (HeapCall.run before (create m)).ledger? = some l →
        (call.perform (HeapCall.run before (create m))).ledger? = some l' →
          Relation.ReflTransGen (Ledger.Turn call.requesters) l l' := by
  have hrun : ∀ before after, calls = before ++ after →
      (HeapCall.run before (create m)).Sound R ∧
        (HeapCall.run before (create m)).Balanced (HeapCall.requestersOf calls) := by
    rintro before after rfl
    have hbefore := (HeapCall.properRun_append.1 hproper).1
    have hkeys : ∀ call ∈ before, call.requesters ⊆ HeapCall.requestersOf (before ++ after) :=
      fun call hcall => HeapCall.requesters_subset (List.mem_append_left after hcall)
    exact ⟨(sound_create hvalid).run hbefore,
      (balanced_early _).run (sound_create hvalid) hcard hkeys hbefore⟩
  refine ⟨fun before after hcalls l hl => ((hrun before after hcalls).2 l hl).tallies,
    fun before call after hcalls l l' hl hl' => ?_⟩
  obtain ⟨hsound, hbalanced⟩ := hrun before (call :: after) hcalls
  subst hcalls
  have hcall := (HeapCall.properRun_append.1 hproper).2.1
  have hkeys : call.requesters ⊆ HeapCall.requestersOf (before ++ call :: after) :=
    HeapCall.requesters_subset (List.mem_append_right before List.mem_cons_self)
  exact hbalanced.turns hsound hcard hkeys (call.perform_change hsound.enabled hcall) hl hl'

/-- A run at the level of call sites over an allocator without reuse: one block moves and is freed
where it was, another is overwritten before it is freed, and an address is no block's. -/
def sharedRun : List HeapCall :=
  [.install { tracking := .detail } .keep, .malloc 100 .compiler ⟨⟨"src/jit.rs", 7, 9⟩, .empty⟩,
    .duplicate [104, 105] .gc ⟨⟨"src/boot.rs", 3, 5⟩, .empty⟩,
    .realloc (some 0x100000000010) 200 .compiler ⟨⟨"src/jit.rs", 8, 9⟩, .empty⟩,
    .free (some 0x100000000010), .overwrite Memory.zero, .free (some 0x100000000090),
    .free (some 0x1234)]

theorem counters_tally_live_sharedRun :
    FreshAllocator.contract.Valid {} ∧
      HeapCall.ProperRun sharedRun (create ⟨({} : FreshAllocator), Memory.zero⟩) ∧
      (HeapCall.requestersOf sharedRun).card < 2 ^ 32 ∧
      ∃ l, (HeapCall.run sharedRun (create ⟨({} : FreshAllocator), Memory.zero⟩)).ledger? = some l ∧
        l.Tallies l.live.values := by
  have hvalid : FreshAllocator.contract.Valid {} := FreshAllocator.wellFormed_empty
  have hproper : HeapCall.ProperRun sharedRun (create ⟨({} : FreshAllocator), Memory.zero⟩) :=
    ⟨rfl, trivial, trivial, trivial, trivial, trivial, trivial, trivial, trivial⟩
  have hcard : (HeapCall.requestersOf sharedRun).card < 2 ^ 32 :=
    Nat.lt_of_le_of_lt (List.toFinset_card_le _) (by decide)
  have htally := (counters_tally_live FreshAllocator.contract (m := ⟨{}, Memory.zero⟩) hvalid
    sharedRun hproper hcard).1 sharedRun [] (List.append_nil _).symm
  exact ⟨hvalid, hproper, hcard, _, rfl, htally _ rfl⟩

end Heap

end HostServices
