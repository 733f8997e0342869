import HostServices.Proofs.Alignment
import HostServices.Proofs.Checked
import HostServices.Proofs.Op
import HostServices.Thread.Stack

/-!
# The size of a new stack

Sizes that passed the checks have a page size that is a power of two (`isPowerOfTwo_of_sizes`). A
new stack has to hold what was asked for and no less than the smallest stack of its kind
(`StackSizes.wanted`), in whole pages. The rounding to pages wraps, so the stack is large enough if
and only if a whole number of pages that is large enough is a word (`initial_covers_iff`).
-/

namespace HostServices

namespace StackConfig

variable {config : StackConfig} {sizes : StackSizes}

theorem isPowerOfTwo_of_minimum {bytes least : UInt64} (h : config.minimum bytes = .ok least) :
    Word.isPowerOfTwo config.pageSize = true := by
  by_contra hnot
  rw [minimum, Alignment.up, if_neg hnot] at h
  cases h

/-- The bytes that the smallest stack of a kind has to hold: the base of the kind and, for managed
and compiler threads, the zones. -/
def needed (config : StackConfig) : ThreadKind → ℕ
  | .java => config.javaBase.toNat + (config.guardZone.toNat + config.shadowZone.toNat)
  | .compiler => config.compilerBase.toNat + (config.guardZone.toNat + config.shadowZone.toNat)
  | .vmInternal | .concurrentGc => config.vmInternalBase.toNat

/-- Sizes in use were worked out for every kind, from what the kind needs. -/
theorem of_sizes (h : config.sizes = .ok (.ok sizes)) :
    sizes.pageSize = config.pageSize ∧ ∀ kind, ∃ bytes : UInt64,
      bytes.toNat = config.needed kind ∧ config.minimum bytes = .ok (sizes.minimum kind) := by
  unfold StackConfig.sizes at h
  obtain ⟨zones, hzones, h⟩ := Checked.bind_eq_ok_iff.1 h
  obtain ⟨javaBytes, hjavaBytes, h⟩ := Checked.bind_eq_ok_iff.1 h
  obtain ⟨java, hjava, h⟩ := Checked.bind_eq_ok_iff.1 h
  split at h
  case h_1 => cases h
  obtain ⟨compilerBytes, hcompilerBytes, h⟩ := Checked.bind_eq_ok_iff.1 h
  obtain ⟨compiler, hcompiler, h⟩ := Checked.bind_eq_ok_iff.1 h
  split at h
  case h_1 => cases h
  obtain ⟨vmInternal, hvmInternal, h⟩ := Checked.bind_eq_ok_iff.1 h
  split at h
  case h_1 => cases h
  obtain ⟨atCreate, -, h⟩ := Checked.bind_eq_ok_iff.1 h
  cases h
  have hzones := Checked.toNat_of_add hzones
  refine ⟨rfl, fun kind => ?_⟩
  cases kind with
  | java => exact ⟨javaBytes, by rw [Checked.toNat_of_add hjavaBytes, hzones, needed], hjava⟩
  | compiler =>
    exact ⟨compilerBytes, by rw [Checked.toNat_of_add hcompilerBytes, hzones, needed], hcompiler⟩
  | vmInternal => exact ⟨config.vmInternalBase, rfl, hvmInternal⟩
  | concurrentGc => exact ⟨config.vmInternalBase, rfl, hvmInternal⟩

/-- Sizes in use are in whole pages, of a page size that is a power of two. -/
theorem pageSize_of_sizes (h : config.sizes = .ok (.ok sizes)) :
    Word.isPowerOfTwo config.pageSize = true ∧ sizes.pageSize = config.pageSize := by
  obtain ⟨hpage, hminimum⟩ := of_sizes h
  obtain ⟨bytes, -, hjava⟩ := hminimum .java
  exact ⟨isPowerOfTwo_of_minimum hjava, hpage⟩

/-- Besides the report, nothing is done but to work the sizes out. -/
theorem result_setMinimumSizes {σ : Type} (config : StackConfig) (s : σ) :
    ((config.setMinimumSizes : Op σ _).run s).result = config.sizes.mapError .fault := by
  unfold setMinimumSizes
  cases config.sizes with
  | error fault => rfl
  | ok answer => cases answer <;> rfl

theorem result_setMinimumSizes_iff {σ : Type} {s : σ} {answer : Except ServiceError StackSizes} :
    ((config.setMinimumSizes : Op σ _).run s).result = .ok answer ↔ config.sizes = .ok answer := by
  rw [result_setMinimumSizes]
  cases config.sizes <;> simp [Except.mapError]

theorem sizes_of_setMinimumSizes {σ : Type} {s : σ}
    (h : ((config.setMinimumSizes : Op σ _).run s).result = .ok (.ok sizes)) :
    config.sizes = .ok (.ok sizes) :=
  result_setMinimumSizes_iff.1 h

end StackConfig

namespace StackSizes

variable {sizes : StackSizes}

/-- What a new stack has to hold: what was asked for, or else the configured or default size, and no
less than the smallest stack. -/
def wanted (sizes : StackSizes) (kind : ThreadKind) (requested : UInt64) : UInt64 :=
  Word.max
    (if requested ≠ 0 then requested
      else if 0 < sizes.configured kind then sizes.configured kind
      else default kind)
    (sizes.minimum kind)

theorem initial_eq (sizes : StackSizes) (kind : ThreadKind) (requested : UInt64) :
    sizes.initial kind requested = Alignment.up (sizes.wanted kind requested) sizes.pageSize := rfl

theorem minimum_le_wanted (sizes : StackSizes) (kind : ThreadKind) (requested : UInt64) :
    (sizes.minimum kind).toNat ≤ (sizes.wanted kind requested).toNat := by
  rw [wanted, Word.toNat_max]
  exact Nat.le_max_right ..

theorem requested_le_wanted (sizes : StackSizes) (kind : ThreadKind) (requested : UInt64) :
    requested.toNat ≤ (sizes.wanted kind requested).toNat := by
  by_cases hrequested : requested = 0
  · rw [hrequested]
    exact Nat.zero_le _
  · rw [wanted, Word.toNat_max, if_pos hrequested]
    exact Nat.le_max_left ..

/-- Some whole number of pages that holds what is wanted is a word. -/
def Fits (sizes : StackSizes) (kind : ThreadKind) (requested : UInt64) : Prop :=
  ∃ n < 2 ^ 64, sizes.pageSize.toNat ∣ n ∧ (sizes.wanted kind requested).toNat ≤ n

/-- The stack of a new thread is of whole pages: the fewest that hold what is wanted, or none at all
if so many pages are no word. So it is as large as the smallest stack of its kind and as requested if
and only if there are enough pages, or the kind has no smallest stack and nothing was requested. -/
theorem initial_covers_iff {σ : Type} {config : StackConfig} {sizes : StackSizes} {s : σ}
    (h : ((config.setMinimumSizes : Op σ _).run s).result = .ok (.ok sizes)) (kind : ThreadKind)
    (requested : UInt64) :
    ∃ size, sizes.initial kind requested = .ok size ∧ config.pageSize.toNat ∣ size.toNat ∧
      (sizes.minimum kind ≤ size ∧ requested ≤ size ↔
        sizes.Fits kind requested ∨ requested = 0 ∧ sizes.minimum kind = 0) ∧
      (sizes.Fits kind requested →
        IsLeast {n : ℕ | config.pageSize.toNat ∣ n ∧ (sizes.wanted kind requested).toNat ≤ n}
          size.toNat) ∧
      (¬ sizes.Fits kind requested → size = 0) := by
  obtain ⟨hpower, hpage⟩ := StackConfig.pageSize_of_sizes (StackConfig.sizes_of_setMinimumSizes h)
  have hfits : sizes.Fits kind requested ↔
      (sizes.wanted kind requested).toNat + (config.pageSize.toNat - 1) < 2 ^ 64 := by
    rw [Fits, hpage]
    exact Word.exists_multiple_iff hpower
  refine ⟨Word.alignUp (sizes.wanted kind requested) config.pageSize, ?_, Word.dvd_alignUp hpower, ?_,
    fun henough => Word.isLeast_alignUp hpower (hfits.1 henough),
    fun hshort => Word.alignUp_of_lt hpower (Nat.not_lt.1 (mt hfits.2 hshort))⟩
  · rw [initial_eq, hpage, Alignment.up_of_isPowerOfTwo hpower]
  by_cases henough : sizes.Fits kind requested
  · have hleast := Word.isLeast_alignUp hpower (hfits.1 henough)
    refine iff_of_true ⟨?_, ?_⟩ (.inl henough)
    · exact UInt64.le_iff_toNat_le.2 ((minimum_le_wanted sizes kind requested).trans hleast.1.2)
    · exact UInt64.le_iff_toNat_le.2 ((requested_le_wanted sizes kind requested).trans hleast.1.2)
  · rw [Word.alignUp_of_lt hpower (Nat.not_lt.1 (mt hfits.2 henough)), UInt64.le_zero_iff,
      UInt64.le_zero_iff, and_comm]
    exact (or_iff_right henough).symm

/-- The settings of a host with pages of 4 KiB, with a size for internal threads. -/
def internalThreads (vmRequested : UInt64) : StackConfig where
  pageSize := 4096
  osMinimum := 16384
  guardZone := 16384
  shadowZone := 81920
  javaBase := 65536
  compilerBase := 65536
  vmInternalBase := 65536
  javaRequested := 0
  compilerRequested := 0
  vmRequested := vmRequested

/-- The sizes that these settings come to. -/
def internalThreadSizes (vmRequested : UInt64) : StackSizes where
  javaMinimum := 163840
  compilerMinimum := 163840
  vmInternalMinimum := 65536
  javaAtCreate := 0
  compilerRequested := 0
  vmRequested := vmRequested
  pageSize := 4096

/-- A request one byte above a whole number of pages. -/
theorem initial_covers_iff_pageAndByte :
    (((internalThreads 0).setMinimumSizes : Op Unit _).run ()).result =
        .ok (.ok (internalThreadSizes 0)) ∧
      ∃ size, (internalThreadSizes 0).initial .vmInternal 1048577 = .ok size ∧ 4096 ∣ size.toNat ∧
        65536 ≤ size ∧ 1048577 ≤ size := by
  have hsizes : (((internalThreads 0).setMinimumSizes : Op Unit _).run ()).result =
      .ok (.ok (internalThreadSizes 0)) := by decide
  obtain ⟨size, hsize, hdvd, hcovers, -⟩ := initial_covers_iff hsizes .vmInternal 1048577
  exact ⟨hsizes, size, hsize, hdvd, hcovers.2 (.inl ⟨1052672, by decide, by decide, by decide⟩)⟩

/-- The largest word as the size of internal threads passes the checks, and a new one gets a stack of
no bytes. -/
theorem largest_configured_wraps :
    (((internalThreads Word.top).setMinimumSizes : Op Unit _).run ()).result =
        .ok (.ok (internalThreadSizes Word.top)) ∧
      (internalThreadSizes Word.top).initial .vmInternal 0 = .ok 0 ∧
      (internalThreadSizes Word.top).minimum .vmInternal = 65536 ∧
      (internalThreadSizes Word.top).initial .vmInternal Word.top = .ok 0 := by
  decide

end StackSizes

end HostServices
