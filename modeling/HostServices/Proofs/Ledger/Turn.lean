import HostServices.Proofs.Ledger.Record
import Mathlib.Data.Finset.Card
import Mathlib.Logic.Relation

/-!
# Turns of a ledger

Whatever is done to a heap, its ledger takes turns of three kinds: a fresh block is entered, a
block is retired, corruptions are reported. `Ledger.Turn` has the turns in which no counter goes
round. Such turns keep the counters' tally of the live blocks (`Balanced.turns`), as long as the
requesters can be told apart by their markers.
-/

namespace HostServices

/-! ## Places in a site table -/

namespace SiteTable

variable {t : SiteTable} {key : SiteKey} {keys : Finset SiteKey} {bs : List LiveBlock} {i : Nat}
  {n : UInt64}

theorem mem_place {e : SiteKey × Counter} (he : e ∈ (t.place key).1.entries) :
    e ∈ t.entries ∨ e.1 = key := by
  unfold place at he
  split at he
  · exact .inl he
  · rcases List.mem_append.1 he with he | he
    · exact .inl he
    · exact .inr (congrArg Prod.fst (List.mem_singleton.1 he))

/-- All requesters of a table are among `keys`. -/
def Within (keys : Finset SiteKey) (t : SiteTable) : Prop :=
  ∀ key ∈ t.entries.map (·.1), key ∈ keys

namespace Within

theorem adjust (h : t.Within keys) (i : Nat) (f : Counter → Counter) : (t.adjust i f).Within keys := by
  rw [Within, keys_adjust]
  exact h

theorem place (h : t.Within keys) (hkey : key ∈ keys) : (t.place key).1.Within keys := by
  intro key' hkey'
  obtain ⟨e, he, rfl⟩ := List.mem_map.1 hkey'
  rcases mem_place he with he | he
  · exact h _ (List.mem_map_of_mem he)
  · rwa [he]

theorem charge (h : t.Within keys) (hkey : key ∈ keys) (n : UInt64) :
    (t.charge key n).1.Within keys :=
  (h.place hkey).adjust (t.place key).2 fun _ =>
    ((t.place key).1.counterAt (t.place key).2).charge n

theorem deallocate (h : t.Within keys) (marker : UInt32) (n : UInt64) :
    (t.deallocate marker n).Within keys := by
  cases hm : marker.toNat with
  | zero =>
    unfold SiteTable.deallocate
    rwa [hm]
  | succ i =>
    rw [deallocate_eq hm]
    exact h.adjust i _

/-- A requester's place is below the number of requesters there can be. -/
theorem place_lt (h : t.Within keys) (htally : t.Tallies bs) (hkey : key ∈ keys) :
    (t.place key).2 < keys.card := by
  obtain ⟨counter, hi⟩ := getElem?_place t key
  have hlt := (List.getElem?_eq_some_iff.1 hi).1
  have hsub : ((t.place key).1.entries.map (·.1)).toFinset ⊆ keys := fun key' hkey' =>
    h.place hkey key' (List.mem_toFinset.1 hkey')
  have hcard := Finset.card_le_card hsub
  rw [List.toFinset_card_of_nodup (htally.place key).distinct, List.length_map] at hcard
  exact Nat.lt_of_lt_of_le hlt hcard

end Within

end SiteTable

/-! ## Turns -/

namespace Ledger

variable {l l' : Ledger} {K : Set SiteKey} {keys : Finset SiteKey} {inner n : UInt64} {b : LiveBlock}
  {c : Category} {origin : Origin}

/-- The ledger with a fresh block, which is charged. -/
def enter (l : Ledger) (inner n : UInt64) (c : Category) (origin : Origin) : Ledger :=
  { (l.charge c origin n).1 with
    live := l.live.insert inner ⟨n, c, origin, (l.charge c origin n).2⟩ }

/-- A turn of a ledger in which no counter goes round. If requesters are counted, those that are
charged are in `K`. -/
inductive Turn (K : Set SiteKey) (l : Ledger) : Ledger → Prop
  | entered {inner n : UInt64} {c : Category} {origin : Origin}
    (hK : l.level = .detail → requester origin c ∈ K) (hfresh : l.live.get? inner = none)
    (hfits : l.Fits c origin n) : l.Turn K (l.enter inner n c origin)
  | retired {inner : UInt64} {b : LiveBlock} (hlive : l.live.get? inner = some b)
    (hcovers : l.Covers b) : l.Turn K (l.retire inner b)
  | reported (found : List Corruption) : l.Turn K (l.addReports found)

/-- The counters stand for the live blocks, and the requesters are among `keys`. -/
structure Balanced (keys : Finset SiteKey) (l : Ledger) : Prop where
  tallies : l.Tallies l.live.values
  within : l.level = .detail → l.sites.Within keys

theorem balanced_fresh (keys : Finset SiteKey) (config : MemoryConfig) (policy : CorruptionPolicy) :
    Balanced keys { config, policy } where
  tallies := ⟨MallocSummary.tallies_empty, fun _ => SiteTable.tallies_empty⟩
  within _ := List.forall_mem_nil _

theorem level_charge : (l.charge c origin n).1.level = l.level := by
  rw [charge_eq]
  rfl

theorem live_charge : (l.charge c origin n).1.live = l.live := by
  rw [charge_eq]

theorem summary_charge : (l.charge c origin n).1.summary = l.summary.charge c n := by
  unfold charge
  split <;> rfl

theorem sites_charge (h : l.level = .detail) :
    (l.charge c origin n).1.sites = (l.sites.charge (requester origin c) n).1 := by
  rw [charge, if_pos h]

namespace Balanced

/-- A live block is covered by its counters. -/
theorem covers (h : l.Balanced keys) (hlive : l.live.get? inner = some b) : l.Covers b :=
  h.tallies.covers ((AddressMap.values_erase_perm hlive).mem_iff.2 List.mem_cons_self)

/-- There are markers for all requesters if there are for their number. -/
theorem hasMarker (h : l.Balanced keys) (hcard : keys.card < 2 ^ 32)
    (hkeys : l.level = .detail → requester origin c ∈ keys) : l.HasMarker c origin :=
  fun hdetail => Nat.lt_of_le_of_lt
    ((h.within hdetail).place_lt (h.tallies.sites hdetail) (hkeys hdetail)) hcard

theorem enter (h : l.Balanced keys) (hcard : keys.card < 2 ^ 32)
    (hkeys : l.level = .detail → requester origin c ∈ keys) (hfresh : l.live.get? inner = none)
    (hfits : l.Fits c origin n) : (l.enter inner n c origin).Balanced keys := by
  have hcharge := (h.tallies.charge hfits (h.hasMarker hcard hkeys)).perm
    (AddressMap.values_insert_perm hfresh).symm
  refine ⟨⟨hcharge.summary, hcharge.sites⟩, fun hdetail => ?_⟩
  have hdetail : l.level = .detail := level_charge.symm.trans hdetail
  show (l.charge c origin n).1.sites.Within keys
  rw [sites_charge hdetail]
  exact (h.within hdetail).charge (hkeys hdetail) n

theorem retire (h : l.Balanced keys) (hlive : l.live.get? inner = some b) :
    (l.retire inner b).Balanced keys := by
  have hdischarge := (h.tallies.perm (AddressMap.values_erase_perm hlive)).discharge
  exact ⟨⟨hdischarge.summary, hdischarge.sites⟩, fun hdetail =>
    (h.within hdetail).deallocate b.marker b.size⟩

/-- A turn keeps the balance if its requesters can be told apart. -/
theorem turn (h : l.Balanced keys) (hcard : keys.card < 2 ^ 32) (hK : K ⊆ keys)
    (hturn : l.Turn K l') : l'.Balanced keys := by
  cases hturn with
  | entered hmem hfresh hfits =>
    exact h.enter hcard (fun hdetail => hK (hmem hdetail)) hfresh hfits
  | retired hlive => exact h.retire hlive
  | reported found => exact ⟨⟨h.tallies.summary, h.tallies.sites⟩, h.within⟩

theorem turns (h : l.Balanced keys) (hcard : keys.card < 2 ^ 32) (hK : K ⊆ keys)
    (hturns : Relation.ReflTransGen (Turn K) l l') : l'.Balanced keys := by
  induction hturns with
  | refl => exact h
  | tail _ hturn ih => exact ih.turn hcard hK hturn

end Balanced

end Ledger

end HostServices
