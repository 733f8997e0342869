import HostServices.Proofs.Heap.Counted
import HostServices.Proofs.Host.Fresh
import HostServices.Proofs.Ledger.Leaks

/-!
# The leaks of a heap

The summary of a heap stands for its live blocks, so these are few enough to be counted in words, and
a report of leaks agrees with both (`leaks_partition_live`).
-/

namespace HostServices.Heap

open LeakRecord (keyOf ofKey)

/-- Whatever a heap was asked for, a report of its leaks has one record for each requester of a live
block, with the number of that one's blocks and their bytes. The records with more bytes come first,
and equals in the order of their sites. All of them together have what the summary has and what the
list of live blocks has. -/
theorem leaks_partition_live {σ : Type} [HostAllocator σ] {R : HostContract σ} {h : Heap σ}
    (hreach : h.Reachable R) {l : Ledger} (hl : h.ledger? = some l) :
    l.CanReport l.leakReport ∧ ∀ records, l.CanReport records →
      (records.map (·.key)).Nodup ∧
      (∀ key, key ∈ records.map (·.key) ↔ ∃ b ∈ l.live.values, keyOf b = key) ∧
      (∀ r ∈ records, r.blocks.toNat = (ofKey r.key l.live.values).length ∧
        r.bytes.toNat = ((ofKey r.key l.live.values).map (·.size.toNat)).sum) ∧
      (records.Pairwise fun a b =>
        b.bytes < a.bytes ∨ a.bytes = b.bytes ∧ a.key.site.display ≤ b.key.site.display) ∧
      (records.map (·.blocks.toNat)).sum = l.summary.total.count.toNat ∧
      (records.map (·.bytes.toNat)).sum = l.summary.total.bytes.toNat ∧
      l.liveBlocks.length = l.summary.total.count.toNat ∧
      (l.liveBlocks.map (·.2.size.toNat)).sum = l.summary.total.bytes.toNat := by
  have htotal := (hreach.counted l hl).total
  have hcount : l.live.values.length = l.summary.total.count.toNat := by
    rw [htotal.count, List.length_map]
  have hbytes : (l.live.values.map (·.size.toNat)).sum = l.summary.total.bytes.toNat := by
    rw [htotal.bytes, List.map_map]
    rfl
  have hlength : l.live.values.length < 2 ^ 64 := hcount ▸ l.summary.total.count.toNat_lt
  have hsum : (l.live.values.map (·.size.toNat)).sum < 2 ^ 64 :=
    hbytes ▸ l.summary.total.bytes.toNat_lt
  refine ⟨l.canReport_leakReport, fun records hreport => ?_⟩
  have hpart := hreport.partition
  obtain ⟨hblocks, hsizes⟩ := hpart.sums hlength hsum
  refine ⟨hpart.nodup, fun key => ?_, fun r hr => ?_, hreport.pairwise, hblocks.trans hcount,
    hsizes.trans hbytes, ?_, ?_⟩
  · rw [hpart.mem_iff, List.mem_map]
  · exact ⟨(hpart.counts r hr).toNat_blocks hlength, (hpart.counts r hr).toNat_bytes hsum⟩
  · rw [← hcount, AddressMap.values, List.length_map]
    rfl
  · rw [← hbytes, AddressMap.values, List.map_map]
    rfl

/-- Two blocks of one requester, one of another between them, and one that is released again. -/
def leakyCalls : List HeapCall :=
  [.install { tracking := .detail } .keep, .malloc 40 .compiler ⟨⟨"src/jit.rs", 7, 9⟩, .empty⟩,
    .malloc 100 .gc ⟨⟨"src/heap.rs", 3, 5⟩, .empty⟩,
    .malloc 24 .compiler ⟨⟨"src/jit.rs", 7, 9⟩, .empty⟩,
    .malloc 500 .gc ⟨⟨"src/heap.rs", 3, 5⟩, .empty⟩, .free (some 0x100000000100)]

/-- The heap with these blocks over an allocator without reuse. -/
def leaky : Heap FreshAllocator :=
  HeapCall.run leakyCalls (create ⟨{}, Memory.zero⟩)

/-- The report has the larger one of the two leaks first. -/
theorem leaks_partition_live_leaky :
    let compiler : SiteKey := ⟨⟨"src/jit.rs", 7, 9⟩, .empty, .compiler⟩
    let gc : SiteKey := ⟨⟨"src/heap.rs", 3, 5⟩, .empty, .gc⟩
    leaky.Reachable FreshAllocator.contract ∧
      ∃ l, leaky.ledger? = some l ∧ l.leakReport = [⟨gc, 1, 100⟩, ⟨compiler, 2, 64⟩] ∧
        l.summary.total.count = 3 ∧ l.summary.total.bytes = 164 ∧ l.liveBlocks.length = 3 := by
  intro compiler gc
  have hreach : leaky.Reachable FreshAllocator.contract :=
    ⟨⟨{}, Memory.zero⟩, leakyCalls, FreshAllocator.wellFormed_empty,
      ⟨rfl, trivial, trivial, trivial, trivial, trivial, trivial⟩, rfl⟩
  have hcollect : leaky.ledger?.map (fun l => LeakRecord.collect (l.liveBlocks.map (·.2))) =
      some [⟨compiler, 2, 64⟩, ⟨gc, 1, 100⟩] := by
    decide +kernel
  obtain ⟨l, hl, hcollect⟩ := Option.map_eq_some_iff.1 hcollect
  have hreport : l.leakReport = [⟨gc, 1, 100⟩, ⟨compiler, 2, 64⟩] := by
    rw [Ledger.leakReport, hcollect]
    exact LeakRecord.arrange_pair (by decide)
  obtain ⟨hcan, hall⟩ := leaks_partition_live hreach hl
  obtain ⟨-, -, -, -, hcount, hbytes, hlength, -⟩ := hall _ hcan
  rw [hreport] at hcount hbytes
  exact ⟨hreach, l, hl, hreport, UInt64.toNat_inj.1 hcount.symm, UInt64.toNat_inj.1 hbytes.symm,
    hlength.trans hcount.symm⟩

end HostServices.Heap
