import HostServices.Proofs.CallSite
import HostServices.Proofs.Ledger.Leaks
import HostServices.Proofs.Ledger.Pending
import Mathlib.Data.List.Nodup
import Mathlib.Logic.Equiv.Basic

/-!
# Ties in a leak report

The records of all requesters are determined by the live blocks (`Partition.records_perm`), so a
report is one of their arrangements (`canReport_iff`). Arranged records are determined but for
those that tie, in bytes and site, and tied records may change places (`Arranged.exchange`).
-/

namespace HostServices

namespace LeakRecord

variable {records records' : List LeakRecord} {bs : List LiveBlock} {a b : LeakRecord}

/-- The order of a report: more bytes first, and equals in the order of their sites. -/
def Arranged (records : List LeakRecord) : Prop :=
  records.Pairwise fun a b =>
    b.bytes < a.bytes ∨ a.bytes = b.bytes ∧ a.key.site.display ≤ b.key.site.display

/-- The order of a report does not tell these records apart. -/
def Tied (a b : LeakRecord) : Prop :=
  a.bytes = b.bytes ∧ a.key.site = b.key.site

/-- Only tied records stand in either order. -/
theorem tied_of_precedes (hab : precedes a b = true) (hba : precedes b a = true) : Tied a b := by
  rw [precedes_iff] at hab hba
  rcases hab with hlt | ⟨hbytes, hsite⟩
  · rcases hba with hlt' | ⟨hbytes, -⟩
    · exact absurd (UInt64.lt_trans hlt hlt') (UInt64.lt_irrefl _)
    · exact absurd (hbytes ▸ hlt) (UInt64.lt_irrefl _)
  · rcases hba with hlt | ⟨-, hsite'⟩
    · exact absurd (hbytes ▸ hlt) (UInt64.lt_irrefl _)
    · exact ⟨hbytes, CallSite.display_injective (le_antisymm hsite hsite')⟩

theorem Partition.nodup_records (h : Partition records bs) : records.Nodup :=
  List.Nodup.of_map _ h.nodup

theorem Counts.eq (ha : a.Counts bs) (hb : b.Counts bs) (hkey : a.key = b.key) : a = b := by
  cases a
  cases b
  cases hkey
  cases ha.blocks.trans hb.blocks.symm
  cases ha.bytes.trans hb.bytes.symm
  rfl

theorem Partition.mem_of_mem (h : Partition records bs) (h' : Partition records' bs)
    (ha : a ∈ records) : a ∈ records' := by
  have hkey := (h'.mem_iff a.key).2 ((h.mem_iff _).1 (List.mem_map_of_mem ha))
  obtain ⟨b, hb, hba⟩ := List.mem_map.1 hkey
  have hcounts := h'.counts b hb
  rw [hba] at hcounts
  cases hcounts.eq (h.counts a ha) hba
  exact hb

/-- Blocks are partitioned in one way, up to the order of the records. -/
theorem Partition.records_perm (h : Partition records bs) (h' : Partition records' bs) :
    records.Perm records' :=
  (List.perm_ext_iff_of_nodup h.nodup_records h'.nodup_records).2 fun _ =>
    ⟨h.mem_of_mem h', h'.mem_of_mem h⟩

theorem arranged_pair (h : Tied a b) : Arranged [a, b] :=
  List.pairwise_pair.2 (.inr ⟨h.1, (congrArg CallSite.display h.2).le⟩)

theorem arrange_eq_self (h : Arranged records) : arrange records = records :=
  List.mergeSort_of_pairwise (h.imp precedes_iff.2)

/-- Two records change places. -/
def exchange (a b : LeakRecord) (records : List LeakRecord) : List LeakRecord :=
  records.map (Equiv.swap a b)

theorem exchange_perm (hnodup : records.Nodup) (ha : a ∈ records) (hb : b ∈ records) :
    (exchange a b records).Perm records := by
  have hmem (r : LeakRecord) (hr : r ∈ records) : Equiv.swap a b r ∈ records := by
    rw [Equiv.swap_apply_def]
    split_ifs
    · exact hb
    · exact ha
    · exact hr
  have hmap : (exchange a b records).Nodup := hnodup.map (Equiv.swap a b).injective
  refine (List.perm_ext_iff_of_nodup hmap hnodup).2 fun r => ?_
  refine ⟨fun hr => ?_, fun hr => List.mem_map.2 ⟨_, hmem r hr, Equiv.swap_apply_self a b r⟩⟩
  obtain ⟨s, hs, rfl⟩ := List.mem_map.1 hr
  exact hmem s hs

/-- Tied records change places and the order is still that of a report. -/
theorem Arranged.exchange (h : Arranged records) (hab : Tied a b) :
    Arranged (exchange a b records) := by
  have hsame (r : LeakRecord) : Tied (Equiv.swap a b r) r := by
    rw [Equiv.swap_apply_def]
    split_ifs with ha hb
    · exact ha ▸ ⟨hab.1.symm, hab.2.symm⟩
    · exact hb ▸ hab
    · exact ⟨rfl, rfl⟩
  refine List.pairwise_map.2 (h.imp fun {r s} hrs => ?_)
  rwa [(hsame r).1, (hsame r).2, (hsame s).1, (hsame s).2]

theorem exchange_eq_self_iff (ha : a ∈ records) : exchange a b records = records ↔ a = b := by
  constructor
  · intro h
    have hmap : records.map (Equiv.swap a b) = records.map id := h.trans (List.map_id _).symm
    exact ((Equiv.swap_apply_left a b).symm.trans (List.map_inj_left.1 hmap a ha)).symm
  · rintro rfl
    rw [exchange, Equiv.swap_self]
    exact List.map_id _

end LeakRecord

namespace Ledger

open LeakRecord (Arranged Tied)

variable {l : Ledger} {records : List LeakRecord}

theorem canReport_iff : l.CanReport records ↔ records.Perm l.leakReport ∧ Arranged records := by
  constructor
  · intro h
    exact ⟨h.partition.records_perm l.canReport_leakReport.partition, h.pairwise⟩
  · rintro ⟨hperm, harranged⟩
    have hreport : l.leakReport.Perm (LeakRecord.collect (l.liveBlocks.map (·.2))) :=
      List.mergeSort_perm _ _
    exact ⟨_, records, .refl _, hperm.trans hreport, (LeakRecord.arrange_eq_self harranged).symm⟩

/-- Whatever order the live blocks and the records of their requesters are gone through in, the
report is the records of `leakReport`, with more bytes first and equals in the order of their sites;
and each list of them in that order is the report for some such order. So there is one report if and
only if no two requesters of live blocks at one site have the same number of bytes: neither the
category nor the stack breaks a tie. -/
theorem leakReport_determined_iff (l : Ledger) :
    (∀ records, l.CanReport records ↔ records.Perm l.leakReport ∧
      records.Pairwise fun a b =>
        b.bytes < a.bytes ∨ a.bytes = b.bytes ∧ a.key.site.display ≤ b.key.site.display) ∧
    ((∀ records, l.CanReport records → records = l.leakReport) ↔
      ∀ a ∈ l.leakReport, ∀ b ∈ l.leakReport, a.bytes = b.bytes → a.key.site = b.key.site →
        a = b) := by
  refine ⟨fun records => canReport_iff, ?_⟩
  obtain ⟨-, harranged⟩ := canReport_iff.1 l.canReport_leakReport
  have hnodup := l.canReport_leakReport.partition.nodup_records
  constructor
  · intro hone a ha b hb hbytes hsite
    have hexchanged := canReport_iff.2 ⟨LeakRecord.exchange_perm hnodup ha hb,
      harranged.exchange ⟨hbytes, hsite⟩⟩
    exact (LeakRecord.exchange_eq_self_iff ha).1 (hone _ hexchanged)
  · intro hdistinct records hreport
    obtain ⟨hperm, hrecords⟩ := canReport_iff.1 hreport
    refine List.Perm.eq_of_pairwise (fun a b ha hb hab hba => ?_) hrecords harranged hperm
    obtain ⟨hbytes, hsite⟩ :=
      LeakRecord.tied_of_precedes (LeakRecord.precedes_iff.2 hab) (LeakRecord.precedes_iff.2 hba)
    exact hdistinct a (hperm.mem_iff.1 ha) b hb hbytes hsite

/-- A block for the compiler and then one for the collector, of one size and from one place. -/
def tiedRun : List LedgerCall :=
  [.record 0x1000 16 .compiler ⟨⟨"src/sites.rs", 9, 14⟩, .empty⟩,
    .record 0x2000 16 .gc ⟨⟨"src/sites.rs", 9, 14⟩, .empty⟩]

theorem tiedCategories_in_either_order :
    let start := Resizing.create { tracking := .summary } .abort Memory.zero
    let l := (LedgerCall.run tiedRun start).tracked.ledger
    let compiler : LeakRecord := ⟨⟨⟨"src/sites.rs", 9, 14⟩, .empty, .compiler⟩, 1, 16⟩
    let gc : LeakRecord := ⟨⟨⟨"src/sites.rs", 9, 14⟩, .empty, .gc⟩, 1, 16⟩
    LedgerCall.ProperRun tiedRun start ∧ l.leakReport = [compiler, gc] ∧
      l.CanReport [compiler, gc] ∧ l.CanReport [gc, compiler] ∧ [compiler, gc] ≠ [gc, compiler] := by
  intro start l compiler gc
  have hcollect : LeakRecord.collect (l.liveBlocks.map (·.2)) = [compiler, gc] := by decide +kernel
  have hreport : l.leakReport = [compiler, gc] := by
    rw [leakReport, hcollect]
    exact LeakRecord.arrange_eq_self (LeakRecord.arranged_pair ⟨rfl, rfl⟩)
  have hother : [gc, compiler].Perm l.leakReport := hreport ▸ .swap _ _ _
  exact ⟨⟨⟨rfl, _, rfl⟩, ⟨rfl, _, rfl⟩, trivial⟩, hreport, hreport ▸ l.canReport_leakReport,
    canReport_iff.2 ⟨hother, LeakRecord.arranged_pair ⟨rfl, rfl⟩⟩, by decide⟩

end Ledger

end HostServices
