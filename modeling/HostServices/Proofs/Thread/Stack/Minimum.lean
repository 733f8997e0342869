import HostServices.Proofs.Thread.Stack

/-!
# The smallest stacks

The smallest stack of a kind is the larger of two numbers (`StackConfig.Smallest`): the fewest whole
pages that hold what the kind needs (`StackConfig.Pages`), and what the host accepts. The host's number
is taken as it is, and where so many pages are no word it is all that is left
(`smallest_of_minimum`). So a smallest stack always satisfies the host,
is of whole pages if and only if the larger number is, and holds what the kind needs if and only if
there are enough pages or the host asks for as much (`minimum_covers_iff`).
-/

namespace HostServices

namespace StackConfig

variable {config : StackConfig} {sizes : StackSizes} {kind : ThreadKind}

/-- `n` bytes are the fewest whole pages that hold what a kind needs. -/
def Pages (config : StackConfig) (kind : ThreadKind) (n : ℕ) : Prop :=
  IsLeast {m : ℕ | config.pageSize.toNat ∣ m ∧ config.needed kind ≤ m} n ∧ n < 2 ^ 64

theorem minimum_of_ok {bytes least : UInt64} (h : config.minimum bytes = .ok least) :
    least = Word.max (Word.alignUp bytes config.pageSize) config.osMinimum := by
  rw [minimum, Alignment.up_of_isPowerOfTwo (isPowerOfTwo_of_minimum h)] at h
  exact (Except.ok.inj h).symm

/-- `least` is the larger of the two numbers, if the pages are a word, and else the host's. -/
def Smallest (config : StackConfig) (kind : ThreadKind) (least : UInt64) : Prop :=
  (∃ n, config.Pages kind n ∧ least.toNat = max n config.osMinimum.toNat) ∨
    (∀ n, ¬ config.Pages kind n) ∧ least = config.osMinimum

theorem smallest_of_minimum {bytes least : UInt64} (hbytes : bytes.toNat = config.needed kind)
    (hminimum : config.minimum bytes = .ok least) : config.Smallest kind least := by
  have hpower := isPowerOfTwo_of_minimum hminimum
  rw [minimum_of_ok hminimum]
  rcases Nat.lt_or_ge (bytes.toNat + (config.pageSize.toNat - 1)) (2 ^ 64) with hfits | hbig
  · have hleast := Word.isLeast_alignUp hpower hfits
    rw [hbytes] at hleast
    exact .inl ⟨_, ⟨hleast, UInt64.toNat_lt _⟩, Word.toNat_max ..⟩
  · refine .inr ⟨?_, ?_⟩
    · rintro n ⟨⟨⟨hdvd, hle⟩, -⟩, hword⟩
      rw [← hbytes] at hle
      exact Nat.not_lt.2 hbig ((Word.exists_multiple_iff hpower).1 ⟨n, hword, hdvd, hle⟩)
    · rw [Word.alignUp_of_lt hpower hbig, ← UInt64.toNat_inj, Word.toNat_max]
      exact Nat.max_eq_right (Nat.zero_le _)

theorem smallest_of_sizes (h : config.sizes = .ok (.ok sizes)) (kind : ThreadKind) :
    config.Smallest kind (sizes.minimum kind) := by
  obtain ⟨bytes, hbytes, hminimum⟩ := (of_sizes h).2 kind
  exact smallest_of_minimum hbytes hminimum

/-- The smallest stack of a kind is no smaller than the host's. It is of whole pages exactly if the
host's is, or there are enough pages for both. It holds what the kind needs exactly if there are
enough pages for that, or the host's is large enough. -/
theorem minimum_covers_iff {σ : Type} {config : StackConfig} {sizes : StackSizes} {s : σ}
    (h : ((config.setMinimumSizes : Op σ _).run s).result = .ok (.ok sizes)) (kind : ThreadKind) :
    config.osMinimum ≤ sizes.minimum kind ∧
      (config.pageSize.toNat ∣ (sizes.minimum kind).toNat ↔
        config.pageSize.toNat ∣ config.osMinimum.toNat ∨
          ∃ n, config.Pages kind n ∧ config.osMinimum.toNat ≤ n) ∧
      (config.needed kind ≤ (sizes.minimum kind).toNat ↔
        config.needed kind ≤ config.osMinimum.toNat ∨ ∃ n, config.Pages kind n) := by
  rcases smallest_of_sizes (sizes_of_setMinimumSizes h) kind with ⟨n, hpages, hminimum⟩ | ⟨hnone, hminimum⟩
  · have hneeded : config.needed kind ≤ n := hpages.1.1.2
    have hdvd : config.pageSize.toNat ∣ n := hpages.1.1.1
    rw [UInt64.le_iff_toNat_le, hminimum]
    refine ⟨Nat.le_max_right .., ⟨fun hwhole => ?_, ?_⟩, ?_⟩
    · rcases Nat.le_total config.osMinimum.toNat n with hle | hle
      · exact .inr ⟨n, hpages, hle⟩
      · rw [Nat.max_eq_right hle] at hwhole
        exact .inl hwhole
    · rintro (hhost | ⟨m, hm, hle⟩)
      · rcases Nat.le_total config.osMinimum.toNat n with hle | hle
        · rwa [Nat.max_eq_left hle]
        · rwa [Nat.max_eq_right hle]
      · rwa [Nat.max_eq_left (hpages.1.unique hm.1 ▸ hle)]
    · exact iff_of_true (hneeded.trans (Nat.le_max_left ..)) (.inr ⟨n, hpages⟩)
  · rw [hminimum]
    refine ⟨UInt64.le_refl _, (or_iff_left ?_).symm, (or_iff_left ?_).symm⟩
    · rintro ⟨n, hpages, -⟩
      exact hnone n hpages
    · rintro ⟨n, hpages⟩
      exact hnone n hpages

/-- The settings of a host with pages of 4 KiB, with the smallest stack that it accepts and the base
of internal threads. -/
def hosted (osMinimum vmInternalBase : UInt64) : StackConfig where
  pageSize := 4096
  osMinimum := osMinimum
  guardZone := 16384
  shadowZone := 81920
  javaBase := 65536
  compilerBase := 65536
  vmInternalBase := vmInternalBase
  javaRequested := 0
  compilerRequested := 0
  vmRequested := 0

/-- The sizes that these settings come to, from those of the kinds. -/
def hostedSizes (managed vmInternal : UInt64) : StackSizes where
  javaMinimum := managed
  compilerMinimum := managed
  vmInternalMinimum := vmInternal
  javaAtCreate := 0
  compilerRequested := 0
  vmRequested := 0
  pageSize := 4096

/-- A base one byte above a whole number of pages, and a host that accepts less. -/
theorem minimum_covers_iff_pageAndByte :
    (((hosted 16384 65537).setMinimumSizes : Op Unit _).run ()).result =
        .ok (.ok (hostedSizes 163840 69632)) ∧
      4096 ∣ ((hostedSizes 163840 69632).minimum .vmInternal).toNat ∧
      65537 ≤ ((hostedSizes 163840 69632).minimum .vmInternal).toNat := by
  have hsizes : (((hosted 16384 65537).setMinimumSizes : Op Unit _).run ()).result =
      .ok (.ok (hostedSizes 163840 69632)) := by decide
  have hpages : (hosted 16384 65537).Pages .vmInternal 69632 := by
    refine ⟨⟨by decide, ?_⟩, by decide⟩
    rintro m ⟨hdvd, hle⟩
    change 4096 ∣ m at hdvd
    change 65537 ≤ m at hle
    omega
  obtain ⟨-, hwhole, hneeded⟩ := minimum_covers_iff hsizes .vmInternal
  exact ⟨hsizes, hwhole.2 (.inr ⟨_, hpages, by decide⟩), hneeded.2 (.inr ⟨_, hpages⟩)⟩

/-- A host that accepts no less than a mebibyte and a byte makes that the smallest stack, which is not
of whole pages. A base beyond the last page leaves the host's smallest stack, which is below it. -/
theorem host_minimum_not_in_pages :
    (((hosted 1048577 65536).setMinimumSizes : Op Unit _).run ()).result =
        .ok (.ok (hostedSizes 1048577 1048577)) ∧
      ¬ 4096 ∣ ((hostedSizes 1048577 1048577).minimum .java).toNat ∧
      (((hosted 16384 Word.top).setMinimumSizes : Op Unit _).run ()).result =
        .ok (.ok (hostedSizes 163840 16384)) ∧
      ¬ Word.top ≤ (hostedSizes 163840 16384).minimum .vmInternal := by
  decide

end StackConfig

end HostServices
