import HostServices.Proofs.Ledger.Tallies
import Mathlib.Data.List.Induction
import Mathlib.Data.String.Basic

/-!
# Leaks by requester

Adding a block to records that partition some blocks gives records that partition those and it
(`Partition.add`). So collected records partition all blocks, in whatever order these come
(`partition_collect`), and their sums are those of the blocks (`Partition.sums`). Arranging changes
nothing but the order.
-/

namespace HostServices

namespace LeakRecord

variable {r : LeakRecord} {records records' : List LeakRecord} {b : LiveBlock}
  {bs bs' : List LiveBlock} {key : SiteKey}

/-! ## Records and their blocks -/

/-- The blocks of a requester. -/
def ofKey (key : SiteKey) (bs : List LiveBlock) : List LiveBlock :=
  bs.filter (keyOf · = key)

theorem ofKey_cons_self : ofKey (keyOf b) (b :: bs) = b :: ofKey (keyOf b) bs :=
  List.filter_cons_of_pos (decide_eq_true rfl)

theorem ofKey_cons_of_ne (h : keyOf b ≠ key) : ofKey key (b :: bs) = ofKey key bs :=
  List.filter_cons_of_neg (by rwa [decide_eq_true_iff])

theorem ofKey_of_notMem (h : key ∉ bs.map keyOf) : ofKey key bs = [] := by
  refine List.filter_eq_nil_iff.2 fun b hb hkey => h ?_
  exact of_decide_eq_true hkey ▸ List.mem_map_of_mem hb

/-- The record has the number of these blocks and their bytes, modulo the word size. -/
structure Counts (r : LeakRecord) (bs : List LiveBlock) : Prop where
  blocks : r.blocks = UInt64.ofNat bs.length
  bytes : r.bytes = UInt64.ofNat (bs.map (·.size.toNat)).sum

/-- The record with one more block. -/
def more (r : LeakRecord) (b : LiveBlock) : LeakRecord :=
  { r with blocks := r.blocks + 1, bytes := r.bytes + b.size }

theorem counts_single (b : LiveBlock) : Counts ⟨keyOf b, 1, b.size⟩ [b] where
  blocks := rfl
  bytes := by rw [List.map_singleton, List.sum_singleton, UInt64.ofNat_toNat]

theorem Counts.more (h : r.Counts bs) (b : LiveBlock) : (r.more b).Counts (b :: bs) where
  blocks := by
    rw [List.length_cons, UInt64.ofNat_add, ← h.blocks]
    rfl
  bytes := by
    rw [List.map_cons, List.sum_cons, Nat.add_comm, UInt64.ofNat_add, ← h.bytes, UInt64.ofNat_toNat]
    rfl

theorem Counts.perm (h : r.Counts bs) (hp : bs.Perm bs') : r.Counts bs' where
  blocks := hp.length_eq ▸ h.blocks
  bytes := (hp.map (·.size.toNat)).sum_eq ▸ h.bytes

/-- A record of one requester's blocks has their number if there are not too many blocks at all. -/
theorem Counts.toNat_blocks (h : r.Counts (ofKey key bs)) (hcount : bs.length < 2 ^ 64) :
    r.blocks.toNat = (ofKey key bs).length := by
  rw [h.blocks]
  exact UInt64.toNat_ofNat_of_lt' (Nat.lt_of_le_of_lt List.filter_sublist.length_le hcount)

theorem Counts.toNat_bytes (h : r.Counts (ofKey key bs))
    (hbytes : (bs.map (·.size.toNat)).sum < 2 ^ 64) :
    r.bytes.toNat = ((ofKey key bs).map (·.size.toNat)).sum := by
  have hle := (List.filter_sublist (l := bs) (p := (keyOf · = key))).map (·.size.toNat)
  rw [h.bytes]
  exact UInt64.toNat_ofNat_of_lt'
    (Nat.lt_of_le_of_lt (hle.sum_le_sum fun _ _ => Nat.zero_le _) hbytes)

/-! ## Records for all blocks -/

/-- There is one record for each requester of a block, and it counts the blocks of that one. -/
structure Partition (records : List LeakRecord) (bs : List LiveBlock) : Prop where
  nodup : (records.map (·.key)).Nodup
  mem_iff (key : SiteKey) : key ∈ records.map (·.key) ↔ key ∈ bs.map keyOf
  counts (r : LeakRecord) : r ∈ records → r.Counts (ofKey r.key bs)

namespace Partition

theorem nil : Partition [] [] :=
  ⟨List.nodup_nil, fun _ => Iff.rfl, fun _ hr => absurd hr List.not_mem_nil⟩

theorem perm (h : Partition records bs) (hrecords : records.Perm records') (hbs : bs.Perm bs') :
    Partition records' bs' where
  nodup := (hrecords.map _).nodup_iff.1 h.nodup
  mem_iff key := by
    rw [← (hrecords.map _).mem_iff, h.mem_iff, (hbs.map _).mem_iff]
  counts r hr := (h.counts r (hrecords.mem_iff.2 hr)).perm (hbs.filter _)

/-- The first block of a requester is a record of its own. -/
theorem cons_new (h : Partition records bs) (hnew : keyOf b ∉ records.map (·.key)) :
    Partition (⟨keyOf b, 1, b.size⟩ :: records) (b :: bs) where
  nodup := List.nodup_cons.2 ⟨hnew, h.nodup⟩
  mem_iff key := by
    rw [List.map_cons, List.map_cons, List.mem_cons, List.mem_cons, h.mem_iff]
  counts r hr := by
    rcases List.mem_cons.1 hr with rfl | hr
    · rw [ofKey_cons_self, ofKey_of_notMem (fun hmem => hnew ((h.mem_iff _).2 hmem))]
      exact counts_single b
    · rw [ofKey_cons_of_ne (fun hkey => hnew (hkey ▸ List.mem_map_of_mem hr))]
      exact h.counts r hr

/-- A further block of a requester is counted in its record. -/
theorem cons_more (h : Partition (r :: records) bs) (hkey : r.key = keyOf b) :
    Partition (r.more b :: records) (b :: bs) where
  nodup := h.nodup
  mem_iff key := by
    have hmore : (r.more b :: records).map (·.key) = (r :: records).map (·.key) := rfl
    have hold : key = keyOf b → key ∈ (r :: records).map (·.key) :=
      fun hsame => hsame.trans hkey.symm ▸ List.mem_cons_self
    rw [hmore, List.map_cons (l := bs), List.mem_cons, ← h.mem_iff, or_iff_right_of_imp hold]
  counts r' hr' := by
    obtain ⟨hfirst, -⟩ := List.nodup_cons.1 h.nodup
    rcases List.mem_cons.1 hr' with rfl | hr'
    · have hfirst := (h.counts r List.mem_cons_self).more b
      rw [hkey, ← ofKey_cons_self, ← hkey] at hfirst
      exact hfirst
    · have hne : keyOf b ≠ r'.key := fun hsame =>
        hfirst (List.mem_map.2 ⟨r', hr', hsame.symm.trans hkey.symm⟩)
      rw [ofKey_cons_of_ne hne]
      exact h.counts r' (List.mem_cons_of_mem _ hr')

end Partition

/-- Adding a block makes a new record, or changes one. -/
theorem add_perm (b : LiveBlock) (records : List LeakRecord) :
    (keyOf b ∉ records.map (·.key) ∧ (add b records).Perm (⟨keyOf b, 1, b.size⟩ :: records)) ∨
      ∃ r rest, r.key = keyOf b ∧ records.Perm (r :: rest) ∧ (add b records).Perm (r.more b :: rest) := by
  induction records with
  | nil => exact .inl ⟨List.not_mem_nil, .refl _⟩
  | cons first records ih =>
    rw [add]
    by_cases hkey : first.key = keyOf b
    · rw [if_pos hkey]
      exact .inr ⟨first, records, hkey, .refl _, .refl _⟩
    · rw [if_neg hkey]
      rcases ih with ⟨hnew, hadd⟩ | ⟨r, rest, hr, hrecords, hadd⟩
      · refine .inl ⟨?_, (hadd.cons first).trans (.swap _ _ _)⟩
        rw [List.map_cons, List.mem_cons, not_or]
        exact ⟨Ne.symm hkey, hnew⟩
      · exact .inr ⟨r, first :: rest, hr, (hrecords.cons first).trans (.swap _ _ _),
          (hadd.cons first).trans (.swap _ _ _)⟩

theorem Partition.add (h : Partition records bs) (b : LiveBlock) :
    Partition (add b records) (b :: bs) := by
  rcases add_perm b records with ⟨hnew, hadd⟩ | ⟨r, rest, hkey, hrecords, hadd⟩
  · exact (h.cons_new hnew).perm hadd.symm (.refl _)
  · exact ((h.perm hrecords (.refl _)).cons_more hkey).perm hadd.symm (.refl _)

/-- Collected records partition the blocks. -/
theorem partition_collect (bs : List LiveBlock) : Partition (collect bs) bs := by
  induction bs using List.reverseRecOn with
  | nil => exact .nil
  | append_singleton bs b ih =>
    rw [collect, List.foldl_append]
    exact (ih.add b).perm (.refl _) (List.perm_append_singleton b bs).symm

/-! ## Sums over records -/

/-- The blocks of all other requesters. -/
def besides (key : SiteKey) (bs : List LiveBlock) : List LiveBlock :=
  bs.filter fun b => !decide (keyOf b = key)

theorem mem_besides : b ∈ besides key bs ↔ b ∈ bs ∧ keyOf b ≠ key := by
  rw [besides, List.mem_filter, Bool.not_eq_true', decide_eq_false_iff_not]

theorem ofKey_append_besides (key : SiteKey) (bs : List LiveBlock) :
    (ofKey key bs ++ besides key bs).Perm bs :=
  List.filter_append_perm _ bs

theorem ofKey_besides {key' : SiteKey} (hne : key' ≠ key) :
    ofKey key' (besides key bs) = ofKey key' bs := by
  rw [ofKey, besides, List.filter_filter]
  refine List.filter_congr fun b _ => ?_
  by_cases hb : keyOf b = key'
  · simp [hb, hne]
  · simp [hb]

/-- Different requesters have all blocks between them. -/
theorem sum_ofKey (weight : LiveBlock → ℕ) {keys : List SiteKey} (hnodup : keys.Nodup)
    (hall : ∀ b ∈ bs, keyOf b ∈ keys) :
    (keys.map fun key => ((ofKey key bs).map weight).sum).sum = (bs.map weight).sum := by
  induction keys generalizing bs with
  | nil =>
    obtain rfl := List.eq_nil_iff_forall_not_mem.2 fun b hb => List.not_mem_nil (hall b hb)
    rfl
  | cons key keys ih =>
    obtain ⟨hnew, hnodup⟩ := List.nodup_cons.1 hnodup
    have hothers : ∀ b ∈ besides key bs, keyOf b ∈ keys := fun b hb =>
      (List.mem_cons.1 (hall b (mem_besides.1 hb).1)).resolve_left (mem_besides.1 hb).2
    have hsame : ∀ key' ∈ keys, ofKey key' (besides key bs) = ofKey key' bs := fun key' hkey' =>
      ofKey_besides fun hsame => hnew (hsame ▸ hkey')
    rw [← ((ofKey_append_besides key bs).map weight).sum_eq, List.map_append, List.sum_append,
      ← ih hnodup hothers, List.map_cons, List.sum_cons]
    exact congrArg _ (congrArg _ (List.map_congr_left fun key' hkey' => by rw [hsame key' hkey']))

/-- All records together have the number of the blocks and their bytes. -/
theorem Partition.sums (h : Partition records bs) (hcount : bs.length < 2 ^ 64)
    (hbytes : (bs.map (·.size.toNat)).sum < 2 ^ 64) :
    (records.map (·.blocks.toNat)).sum = bs.length ∧
      (records.map (·.bytes.toNat)).sum = (bs.map (·.size.toNat)).sum := by
  have hall : ∀ b ∈ bs, keyOf b ∈ records.map (·.key) := fun b hb =>
    (h.mem_iff _).2 (List.mem_map_of_mem hb)
  have hlengths := sum_ofKey (fun _ => 1) h.nodup hall
  have hsizes := sum_ofKey (·.size.toNat) h.nodup hall
  rw [List.map_map] at hlengths hsizes
  simp only [List.map_const', List.sum_replicate_nat, Nat.mul_one] at hlengths
  refine ⟨Eq.trans ?_ hlengths, Eq.trans ?_ hsizes⟩
  · exact congrArg _ (List.map_congr_left fun r hr => (h.counts r hr).toNat_blocks hcount)
  · exact congrArg _ (List.map_congr_left fun r hr => (h.counts r hr).toNat_bytes hbytes)

/-! ## The order of a report -/

theorem precedes_iff {a b : LeakRecord} : precedes a b = true ↔
    b.bytes < a.bytes ∨ a.bytes = b.bytes ∧ a.key.site.display ≤ b.key.site.display := by
  rw [precedes, Bool.or_eq_true, decide_eq_true_iff, Bool.and_eq_true, beq_iff_eq, Bool.not_eq_true',
    decide_eq_false_iff_not, not_lt]

theorem precedes_total (a b : LeakRecord) : (precedes a b || precedes b a) = true := by
  rw [Bool.or_eq_true, precedes_iff, precedes_iff, UInt64.lt_iff_toNat_lt, UInt64.lt_iff_toNat_lt,
    ← UInt64.toNat_inj, ← UInt64.toNat_inj]
  rcases Nat.lt_trichotomy a.bytes.toNat b.bytes.toNat with hlt | heq | hgt
  · exact .inr (.inl hlt)
  · exact (le_total a.key.site.display b.key.site.display).imp (fun hle => .inr ⟨heq, hle⟩)
      fun hle => .inr ⟨heq.symm, hle⟩
  · exact .inl (.inl hgt)

theorem precedes_trans (a b c : LeakRecord) (hab : precedes a b = true) (hbc : precedes b c = true) :
    precedes a c = true := by
  rw [precedes_iff] at hab hbc ⊢
  rcases hab with hab | ⟨hab, hsite⟩
  · exact .inl (hbc.elim (UInt64.lt_trans · hab) fun hbc => hbc.1 ▸ hab)
  · rcases hbc with hbc | ⟨hbc, hsite'⟩
    · exact .inl (hab ▸ hbc)
    · exact .inr ⟨hab.trans hbc, hsite.trans hsite'⟩

/-- Arranged records have those with more bytes first, and equals in the order of their sites. -/
theorem pairwise_arrange (records : List LeakRecord) :
    (arrange records).Pairwise fun a b =>
      b.bytes < a.bytes ∨ a.bytes = b.bytes ∧ a.key.site.display ≤ b.key.site.display :=
  (List.pairwise_mergeSort precedes_trans precedes_total records).imp precedes_iff.1

/-- Two records that are out of order are swapped. -/
theorem arrange_pair {a b : LeakRecord} (h : precedes a b = false) : arrange [a, b] = [b, a] := by
  simp [arrange, List.mergeSort, h]

end LeakRecord

namespace Ledger

variable {l : Ledger} {records : List LeakRecord}

/-- A report of the leaks. The live table and then the records of the requesters are gone through in
any order before the records are arranged. -/
def CanReport (l : Ledger) (records : List LeakRecord) : Prop :=
  ∃ blocks groups, blocks.Perm l.live.values ∧ groups.Perm (LeakRecord.collect blocks) ∧
    records = LeakRecord.arrange groups

theorem canReport_leakReport (l : Ledger) : l.CanReport l.leakReport :=
  ⟨_, _, .refl _, .refl _, rfl⟩

theorem CanReport.partition (h : l.CanReport records) :
    LeakRecord.Partition records l.live.values := by
  obtain ⟨blocks, groups, hblocks, hgroups, rfl⟩ := h
  have harranged : (LeakRecord.arrange groups).Perm groups := List.mergeSort_perm _ _
  exact (LeakRecord.partition_collect blocks).perm (harranged.trans hgroups).symm hblocks

theorem CanReport.pairwise (h : l.CanReport records) :
    records.Pairwise fun a b =>
      b.bytes < a.bytes ∨ a.bytes = b.bytes ∧ a.key.site.display ≤ b.key.site.display := by
  obtain ⟨blocks, groups, -, -, rfl⟩ := h
  exact LeakRecord.pairwise_arrange groups

end Ledger

end HostServices
