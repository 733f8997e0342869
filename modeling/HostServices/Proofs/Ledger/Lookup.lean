import HostServices.Ledger.Report
import HostServices.Proofs.CallSite
import HostServices.Proofs.Ledger.Pending
import HostServices.Proofs.Text.Hex
import Mathlib.Order.CompletePartialOrder
import Mathlib.Order.Interval.Set.Disjoint

/-!
# What an address is

A block answers for its own bytes and for its header (`describeBlock_eq_some_iff`). The host ranges
of live blocks are apart, so at most one block answers for an address (`Separate.eq_of_mem`), and it
plays no part which one is asked first (`describeIn_eq_some_iff`). The text of an answer tells
which of a block's bytes it is about (`insideText_inj`) or which block's header (`headerText_inj`).
-/

namespace HostServices

/-! ## The parts of a host block -/

section ranges

variable (e : UInt64 × LiveBlock)

/-- The header of a live block. -/
def headerRange : Set ℕ :=
  Set.Ico (e.1.toNat - 16) e.1.toNat

/-- The user's bytes of a live block. -/
def userRange : Set ℕ :=
  Set.Ico e.1.toNat (e.1.toNat + e.2.size.toNat)

/-- The footer of a live block. -/
def footerRange : Set ℕ :=
  Set.Ico (e.1.toNat + e.2.size.toNat) (e.1.toNat + e.2.size.toNat + 2)

/-- All of the host block of a live block. -/
def hostRange : Set ℕ :=
  Set.Ico (e.1.toNat - 16) (e.1.toNat + e.2.size.toNat + 2)

end ranges

variable {e e' : UInt64 × LiveBlock} {a : ℕ} {addr : UInt64}

theorem hostRange_eq (e : UInt64 × LiveBlock) :
    hostRange e = headerRange e ∪ userRange e ∪ footerRange e := by
  ext a
  simp only [hostRange, headerRange, userRange, footerRange, Set.mem_union, Set.mem_Ico]
  omega

/-- The footer is neither of the other parts. -/
theorem notMem_of_footerRange (h : a ∈ footerRange e) : a ∉ headerRange e ∧ a ∉ userRange e := by
  simp only [headerRange, userRange, footerRange, Set.mem_Ico] at h ⊢
  omega

theorem notMem_headerRange_of_userRange (h : a ∈ userRange e) : a ∉ headerRange e := by
  simp only [headerRange, userRange, Set.mem_Ico] at h ⊢
  omega

/-! ## Answers -/

/-- The answer for an address in the user's bytes. -/
def insideText (addr : UInt64) (e : UInt64 × LiveBlock) : String :=
  s!"{Hex.word addr} is {(addr - e.1).toNat} bytes inside a live malloc'd block of " ++
    s!"{e.2.size.toNat} bytes ({e.2.category.displayName}) allocated at {e.2.origin.site.display}"

/-- The answer for an address in the header. -/
def headerText (addr : UInt64) (e : UInt64 × LiveBlock) : String :=
  s!"{Hex.word addr} is in the malloc header of block {Hex.word e.1} " ++
    s!"({e.2.size.toNat} bytes, {e.2.category.displayName})"

theorem toList_insideText (addr : UInt64) (e : UInt64 × LiveBlock) : ∃ rest,
    (insideText addr e).toList = (Hex.word addr ++ " is ").toList ++
      ((toString (addr - e.1).toNat).toList ++ ' ' :: rest) := by
  have h : insideText addr e = Hex.word addr ++ " is " ++ toString (addr - e.1).toNat ++
      " bytes inside a live malloc'd block of " ++ (toString e.2.size.toNat ++ " bytes (" ++
        e.2.category.displayName ++ ") allocated at " ++ e.2.origin.site.display) := rfl
  rw [h]
  simp only [String.toList_append, List.append_assoc]
  exact ⟨_, rfl⟩

theorem toList_headerText (addr : UInt64) (e : UInt64 × LiveBlock) : ∃ rest,
    (headerText addr e).toList = (Hex.word addr ++ " is ").toList ++
      ("in".toList ++ ' ' :: ("the malloc header of block 0x".toList ++
        (Nat.toDigits 16 e.1.toNat ++ ' ' :: rest))) := by
  have h : headerText addr e = Hex.word addr ++ " is in the malloc header of block " ++
      Hex.word e.1 ++ " " ++ ("(" ++ toString e.2.size.toNat ++ " bytes, " ++
        e.2.category.displayName ++ ")") := rfl
  rw [h]
  simp only [String.toList_append, List.append_assoc, Hex.toList_word e.1]
  exact ⟨_, rfl⟩

/-- The answer for an address tells the offset, and so where the block is. -/
theorem insideText_inj (h : insideText addr e = insideText addr e') : e.1 = e'.1 := by
  obtain ⟨rest, htext⟩ := toList_insideText addr e
  obtain ⟨rest', htext'⟩ := toList_insideText addr e'
  rw [h, htext'] at htext
  have hno (n : ℕ) : ' ' ∉ (toString n).toList := Text.notMem_toString rfl n
  obtain ⟨hoffset, -⟩ := Text.cut_unique (hno _) (hno _) (List.append_cancel_left htext)
  have hoffset := UInt64.toNat_inj.1 (Text.toList_toString_inj.1 hoffset)
  exact ((UInt64.sub_right_inj addr).1 hoffset).symm

/-- The answer for an address tells whose header it is in. -/
theorem headerText_inj (h : headerText addr e = headerText addr e') : e.1 = e'.1 := by
  obtain ⟨rest, htext⟩ := toList_headerText addr e
  obtain ⟨rest', htext'⟩ := toList_headerText addr e'
  rw [h, htext'] at htext
  have hno (n : ℕ) : ' ' ∉ Nat.toDigits 16 n := by
    rw [Hex.toDigits_eq_digits]
    exact Hex.notMem_digits (by decide) _ n
  have hrest := List.append_cancel_left (List.append_cancel_left htext)
  obtain ⟨hinner, -⟩ :=
    Text.cut_unique (hno _) (hno _) (List.append_cancel_left (List.cons.inj hrest).2)
  exact (UInt64.toNat_inj.1 (Hex.toDigits_inj.1 hinner)).symm

/-- An offset begins with a digit. -/
theorem insideText_ne_headerText : insideText addr e ≠ headerText addr e' := by
  intro h
  obtain ⟨rest, htext⟩ := toList_insideText addr e
  obtain ⟨rest', htext'⟩ := toList_headerText addr e'
  rw [h, htext'] at htext
  obtain ⟨hword, -⟩ := Text.cut_unique (by decide) (Text.notMem_toString rfl _)
    (List.append_cancel_left htext)
  have hi : 'i' ∈ (toString (addr - e.1).toNat).toList := hword ▸ (by decide)
  exact Text.notMem_toString rfl _ hi

namespace Ledger

variable {l : Ledger} {blocks : List (UInt64 × LiveBlock)} {text : String}

/-- A block answers for its own bytes and for its header. -/
theorem describeBlock_eq_some_iff (h : 16 ≤ e.1.toNat) :
    describeBlock addr e.1 e.2 = some text ↔
      addr.toNat ∈ userRange e ∧ insideText addr e = text ∨
        addr.toNat ∈ headerRange e ∧ headerText addr e = text := by
  have hparts := notMem_headerRange_of_userRange (a := addr.toNat) (e := e)
  have hheader : addr.toNat < e.1.toNat ∧ e.1.toNat ≤ addr.toNat + 16 ↔
      addr.toNat ∈ headerRange e := by
    rw [headerRange, Set.mem_Ico]
    omega
  have huser : e.1.toNat ≤ addr.toNat ∧ addr.toNat < e.1.toNat + e.2.size.toNat ↔
      addr.toNat ∈ userRange e := Iff.rfl
  have hanswer : describeBlock addr e.1 e.2 =
      if e.1.toNat ≤ addr.toNat ∧ addr.toNat < e.1.toNat + e.2.size.toNat then
        some (insideText addr e)
      else if addr.toNat < e.1.toNat ∧ e.1.toNat ≤ addr.toNat + 16 then some (headerText addr e)
      else none := rfl
  rw [hanswer]
  by_cases hu : addr.toNat ∈ userRange e
  · rw [if_pos (huser.2 hu)]
    simp [hu, hparts hu]
  · rw [if_neg (mt huser.1 hu)]
    by_cases hh : addr.toNat ∈ headerRange e
    · rw [if_pos (hheader.2 hh)]
      simp [hu, hh]
    · rw [if_neg (mt hheader.1 hh)]
      simp [hu, hh]

/-! ## Live blocks apart -/

/-- Each live block has sixteen bytes of memory in front of its own and two behind them, and no byte
is in the host blocks of two. -/
structure Separate (l : Ledger) : Prop where
  placed (e : UInt64 × LiveBlock) : e ∈ l.liveBlocks →
    16 ≤ e.1.toNat ∧ e.1.toNat + e.2.size.toNat + 2 ≤ 2 ^ 64
  apart (e e' : UInt64 × LiveBlock) : e ∈ l.liveBlocks → e' ∈ l.liveBlocks → e ≠ e' →
    Disjoint (hostRange e) (hostRange e')

namespace Separate

theorem eq_of_mem (h : l.Separate) (he : e ∈ l.liveBlocks) (he' : e' ∈ l.liveBlocks)
    (ha : a ∈ hostRange e) (ha' : a ∈ hostRange e') : e = e' := by
  by_contra hne
  exact Set.disjoint_left.1 (h.apart e e' he he' hne) ha ha'

/-- Without a block, the others are apart. -/
theorem erase {l' : Ledger} {inner : UInt64} (h : l.Separate)
    (hl' : l'.live = l.live.erase inner) : l'.Separate := by
  have hmem {e : UInt64 × LiveBlock} (he : e ∈ l'.liveBlocks) : e ∈ l.liveBlocks := by
    rw [liveBlocks, hl', AddressMap.mem_erase] at he
    exact he.1
  exact ⟨fun e he => h.placed e (hmem he), fun e e' he he' => h.apart e e' (hmem he) (hmem he')⟩

end Separate

/-- An answer is that of the only block that has the address in its own bytes or its header. -/
theorem describeIn_eq_some_iff (h : l.Separate) (hblocks : blocks.Perm l.liveBlocks) :
    describeIn blocks addr = some text ↔
      ∃ e ∈ l.liveBlocks, addr.toNat ∈ userRange e ∧ insideText addr e = text ∨
        addr.toNat ∈ headerRange e ∧ headerText addr e = text := by
  have hanswer {e : UInt64 × LiveBlock} {text : String} (he : e ∈ l.liveBlocks) :
      describeBlock addr e.1 e.2 = some text ↔ _ :=
    describeBlock_eq_some_iff (h.placed e he).1
  have hhost {e : UInt64 × LiveBlock} {text : String} (he : e ∈ l.liveBlocks)
      (hsome : describeBlock addr e.1 e.2 = some text) : addr.toNat ∈ hostRange e := by
    rw [hostRange_eq]
    exact .inl (((hanswer he).1 hsome).symm.imp And.left And.left)
  have hfound {text : String} (hsome : describeIn blocks addr = some text) :
      ∃ e ∈ l.liveBlocks, describeBlock addr e.1 e.2 = some text := by
    obtain ⟨e, he, hsome⟩ := List.exists_of_findSome?_eq_some hsome
    exact ⟨e, hblocks.mem_iff.1 he, hsome⟩
  constructor
  · intro hsome
    obtain ⟨e, he, hsome⟩ := hfound hsome
    exact ⟨e, he, (hanswer he).1 hsome⟩
  · rintro ⟨e, he, htext⟩
    have hsome := (hanswer he).2 htext
    -- Some block answers, and it can be no other than `e`.
    have hisSome : (describeIn blocks addr).isSome := by
      rw [describeIn, List.findSome?_isSome_iff]
      exact ⟨e, hblocks.mem_iff.2 he, Option.isSome_of_eq_some hsome⟩
    obtain ⟨text', htext'⟩ := Option.isSome_iff_exists.1 hisSome
    obtain ⟨e', he', hsome'⟩ := hfound htext'
    cases h.eq_of_mem he he' (hhost he hsome) (hhost he' hsome')
    rw [htext', ← hsome', hsome]

theorem describe_eq_some_iff (h : l.Separate) :
    l.describe addr = some text ↔
      ∃ e ∈ l.liveBlocks, addr.toNat ∈ userRange e ∧ insideText addr e = text ∨
        addr.toNat ∈ headerRange e ∧ headerText addr e = text :=
  describeIn_eq_some_iff h (.refl _)

/-- The live blocks may be asked in any order. -/
theorem describeIn_eq_describe (h : l.Separate) (hblocks : blocks.Perm l.liveBlocks) :
    describeIn blocks addr = l.describe addr :=
  Option.ext fun _ => (describeIn_eq_some_iff h hblocks).trans (describe_eq_some_iff h).symm

theorem describe_eq_insideText_iff (h : l.Separate) (he : e ∈ l.liveBlocks) :
    l.describe addr = some (insideText addr e) ↔ addr.toNat ∈ userRange e := by
  rw [describe_eq_some_iff h]
  constructor
  · rintro ⟨e', he', ⟨huser, htext⟩ | ⟨-, htext⟩⟩
    · exact AddressMap.eq_of_mem he' he (insideText_inj htext) ▸ huser
    · exact absurd htext.symm insideText_ne_headerText
  · exact fun huser => ⟨e, he, .inl ⟨huser, rfl⟩⟩

theorem describe_eq_headerText_iff (h : l.Separate) (he : e ∈ l.liveBlocks) :
    l.describe addr = some (headerText addr e) ↔ addr.toNat ∈ headerRange e := by
  rw [describe_eq_some_iff h]
  constructor
  · rintro ⟨e', he', ⟨-, htext⟩ | ⟨hheader, htext⟩⟩
    · exact absurd htext insideText_ne_headerText
    · exact AddressMap.eq_of_mem he' he (headerText_inj htext) ▸ hheader
  · exact fun hheader => ⟨e, he, .inr ⟨hheader, rfl⟩⟩

theorem describe_eq_none_iff (h : l.Separate) : l.describe addr = none ↔
    ∀ e ∈ l.liveBlocks, addr.toNat ∉ userRange e ∧ addr.toNat ∉ headerRange e := by
  rw [Option.eq_none_iff_forall_ne_some]
  simp only [ne_eq, describe_eq_some_iff h]
  constructor
  · intro hnone e he
    exact ⟨fun huser => hnone _ ⟨e, he, .inl ⟨huser, rfl⟩⟩,
      fun hheader => hnone _ ⟨e, he, .inr ⟨hheader, rfl⟩⟩⟩
  · rintro hnone text ⟨e, he, ⟨huser, -⟩ | ⟨hheader, -⟩⟩
    · exact (hnone e he).1 huser
    · exact (hnone e he).2 hheader

/-- An address in a footer is in no live block, and in the header of none. -/
theorem describe_footer (h : l.Separate) (he : e ∈ l.liveBlocks)
    (hfooter : addr.toNat ∈ footerRange e) : l.describe addr = none := by
  rw [describe_eq_none_iff h]
  intro e' he'
  obtain ⟨hheader, huser⟩ := notMem_of_footerRange hfooter
  have hsame (hpart : addr.toNat ∈ headerRange e' ∪ userRange e') : e' = e := by
    refine h.eq_of_mem he' he (a := addr.toNat) ?_ ?_
    · rw [hostRange_eq]
      exact .inl hpart
    · rw [hostRange_eq]
      exact .inr hfooter
  exact ⟨fun hmem => huser (hsame (.inr hmem) ▸ hmem),
    fun hmem => hheader (hsame (.inl hmem) ▸ hmem)⟩

/-- Nothing is said about the host block of a block that is taken out. -/
theorem describe_removed {l' : Ledger} (h : l.Separate) (hl' : l'.live = l.live.erase e.1)
    (he : e ∈ l.liveBlocks) (hhost : addr.toNat ∈ hostRange e) : l'.describe addr = none := by
  rw [describe_eq_none_iff (h.erase hl')]
  intro e' he'
  rw [liveBlocks, hl', AddressMap.mem_erase] at he'
  have hnot (hpart : addr.toNat ∈ headerRange e' ∪ userRange e') : False := by
    have hhost' : addr.toNat ∈ hostRange e' := by
      rw [hostRange_eq]
      exact .inl hpart
    exact he'.2 (congrArg Prod.fst (h.eq_of_mem he'.1 he hhost' hhost))
  exact ⟨fun huser => hnot (.inr huser), fun hheader => hnot (.inl hheader)⟩

/-- Where live blocks are apart, an address is described by the block that it is a user's byte of,
with its offset in that, or by the block whose header it is in, and by no other. It is not described
if it is anywhere else: in a footer, or in a block that is released or taken out for a resize, damaged
or not. The order in which the blocks are asked plays no part. -/
theorem describe_exact (h : l.Separate) (addr : UInt64) :
    (∀ blocks, blocks.Perm l.liveBlocks → describeIn blocks addr = l.describe addr) ∧
    (∀ e ∈ l.liveBlocks,
      (l.describe addr = some (insideText addr e) ↔ addr.toNat ∈ userRange e) ∧
      (addr.toNat ∈ userRange e → e.1.toNat + (addr - e.1).toNat = addr.toNat) ∧
      (l.describe addr = some (headerText addr e) ↔ addr.toNat ∈ headerRange e) ∧
      (addr.toNat ∈ footerRange e → l.describe addr = none)) ∧
    (l.describe addr = none ↔
      ∀ e ∈ l.liveBlocks, addr.toNat ∉ userRange e ∧ addr.toNat ∉ headerRange e) ∧
    (l.enabled = true → ∀ m : Memory, ∀ e ∈ l.liveBlocks, addr.toNat ∈ hostRange e →
      ((TrackedMemory.recordFree e.1).run ⟨l, m⟩).state.ledger.describe addr = none ∧
      ∀ c, ((TrackedMemory.markDeadForRealloc e.1 c).run ⟨l, m⟩).state.ledger.describe addr =
        none) := by
  refine ⟨fun blocks hblocks => describeIn_eq_describe h hblocks, fun e he => ?_,
    describe_eq_none_iff h, fun henabled m e he hhost => ?_⟩
  · refine ⟨describe_eq_insideText_iff h he, fun huser => ?_, describe_eq_headerText_iff h he,
      describe_footer h he⟩
    rw [UInt64.toNat_sub_of_le _ _ (UInt64.le_iff_toNat_le.2 huser.1)]
    exact Nat.add_sub_cancel' huser.1
  · have henabled : (TrackedMemory.mk l m).ledger.enabled = true := henabled
    exact ⟨describe_removed h (TrackedMemory.live_recordFree henabled e.1) he hhost,
      fun c => describe_removed h (TrackedMemory.live_markDeadForRealloc henabled e.1 c) he hhost⟩

/-- A block of a hundred bytes, and one whose header is right behind its footer. -/
def adjacent : Ledger :=
  (LedgerCall.run [.record 0x1000 100 .compiler ⟨⟨"src/jit.rs", 7, 9⟩, .empty⟩,
    .record 0x1076 40 .gc ⟨⟨"src/heap.rs", 3, 5⟩, .empty⟩]
    (Resizing.create { tracking := .detail } .abort Memory.zero)).tracked.ledger

/-- The last byte of the first footer, the first one of the second header, and the last one of the
second block, before and after that block is released. -/
theorem describe_exact_adjacent :
    adjacent.Separate ∧ adjacent.enabled = true ∧ adjacent.describe 0x1075 = none ∧
      adjacent.describe 0x1076 =
        some "0x1076 is in the malloc header of block 0x1086 (40 bytes, GC)" ∧
      describeIn adjacent.liveBlocks.reverse 0x10ad = some
        "0x10ad is 39 bytes inside a live malloc'd block of 40 bytes (GC) allocated at src/heap.rs:3:5" ∧
      ((TrackedMemory.recordFree 0x1086).run ⟨adjacent, Memory.zero⟩).state.ledger.describe 0x10ad =
        none := by
  have hblocks : adjacent.liveBlocks =
      [(0x1010, ⟨100, .compiler, ⟨⟨"src/jit.rs", 7, 9⟩, .empty⟩, 1⟩),
        (0x1086, ⟨40, .gc, ⟨⟨"src/heap.rs", 3, 5⟩, .empty⟩, 2⟩)] := by
    decide +kernel
  have hseparate : adjacent.Separate := by
    constructor
    · rw [hblocks]
      decide
    · intro e e' he he' hne
      simp only [hblocks, List.mem_cons, List.not_mem_nil, or_false] at he he'
      rw [hostRange, hostRange, Set.Ico_disjoint_Ico]
      rcases he with rfl | rfl <;> rcases he' with rfl | rfl <;>
        first | exact absurd rfl hne | decide
  obtain ⟨-, hfooter, -⟩ := describe_exact hseparate 0x1075
  obtain ⟨-, hheader, -⟩ := describe_exact hseparate 0x1076
  obtain ⟨horder, huser, -, hremoved⟩ := describe_exact hseparate 0x10ad
  have hremoved := hremoved rfl Memory.zero
  rw [hblocks] at hfooter hheader huser hremoved
  have hlast : ∀ {x y : UInt64 × LiveBlock}, y ∈ [x, y] :=
    List.mem_cons_of_mem _ List.mem_cons_self
  refine ⟨hseparate, rfl, ?_, ?_, ?_, ?_⟩
  · exact (hfooter _ List.mem_cons_self).2.2.2 ⟨by decide, by decide⟩
  · refine ((hheader _ hlast).2.2.1.2 ⟨by decide, by decide⟩).trans ?_
    decide +kernel
  · rw [horder _ (List.reverse_perm _)]
    refine ((huser _ hlast).1.2 ⟨by decide, by decide⟩).trans ?_
    decide +kernel
  · exact (hremoved _ hlast ⟨by decide, by decide⟩).1

end Ledger

end HostServices
