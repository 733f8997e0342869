import HostServices.Proofs.Thread.Stack.Minimum

/-!
# The advice on stack sizes

A requested size below the smallest stack of its kind is refused. The refusal names the setting and
gives the smallest stack in kibibytes as advice. The kinds are checked one after the other, so a
refusal is that of the first kind that is refused (`sizes_eq_error_iff_first`), and another size for
that kind changes its own check only (`sizes_withRequested_eq_error_iff`). The advice leaves out what
is no whole kibibyte. So a size that follows it is refused if and only if something was left out of a
kibibyte or more (`advice_refused_iff`).
-/

namespace HostServices

namespace StackConfig

variable {config : StackConfig} {kind k : ThreadKind} {e : ServiceError}

/-! ## One kind after the other -/

/-- The setting for the stacks of a kind, as refusals name it. -/
def setting : ThreadKind → String
  | .java => "Java thread stack size"
  | .compiler => "CompilerThreadStackSize"
  | .vmInternal | .concurrentGc => "VMThreadStackSize"

/-- The size that is requested for a kind. -/
def requested (config : StackConfig) : ThreadKind → UInt64
  | .java => config.javaRequested
  | .compiler => config.compilerRequested
  | .vmInternal | .concurrentGc => config.vmRequested

/-- The place of a kind in the order of the checks. -/
def turn : ThreadKind → ℕ
  | .java => 0
  | .compiler => 1
  | .vmInternal | .concurrentGc => 2

/-- What the check of a kind comes to. -/
def Answers (config : StackConfig) (kind : ThreadKind) (answer : Except ServiceError Unit) : Prop :=
  ∃ bytes least, bytes.toNat = config.needed kind ∧ config.minimum bytes = .ok least ∧
    accept (setting kind) (config.requested kind) least = answer

theorem accept_eq_error_iff {name : String} {size least : UInt64} :
    accept name size least = .error e ↔
      (size ≠ 0 ∧ size < least) ∧ e = .stackTooSmall name (least / 1024) := by
  unfold accept
  split
  · rename_i hsmall
    rw [Except.error.injEq, and_iff_right hsmall, eq_comm]
  · rename_i hsmall
    exact iff_of_false nofun fun h => hsmall h.1

theorem setting_of_answers {name : String} {kib : UInt64}
    (h : config.Answers kind (.error (.stackTooSmall name kib))) : setting kind = name := by
  obtain ⟨_, _, -, -, hrefused⟩ := h
  exact (ServiceError.stackTooSmall.inj (accept_eq_error_iff.1 hrefused).2).1.symm

/-- A check with others behind it, which refuse whatever smallest stack it found. -/
theorem check_eq_error_iff {α : Type} (kind : ThreadKind) {x : Except Fault UInt64}
    {rest : UInt64 → Except Fault (Except ServiceError α)} {R : Prop}
    (hx : ∀ bytes, x = .ok bytes ↔ bytes.toNat = config.needed kind)
    (hrest : ∀ least, rest least = .ok (.error e) ↔ R) :
    (do
      let least ← config.minimum (← x)
      match accept (setting kind) (config.requested kind) least with
      | .error e => return .error e
      | .ok () => rest least : Except Fault (Except ServiceError α)) = .ok (.error e) ↔
    config.Answers kind (.error e) ∨ config.Answers kind (.ok ()) ∧ R := by
  simp only [Checked.bind_eq_ok_iff]
  constructor
  · rintro ⟨bytes, hbytes, least, hleast, h⟩
    have hbytes := (hx bytes).1 hbytes
    split at h
    case h_1 hrefused =>
      cases h
      exact .inl ⟨bytes, least, hbytes, hleast, hrefused⟩
    case h_2 haccepted =>
      exact .inr ⟨⟨bytes, least, hbytes, hleast, haccepted⟩, (hrest least).1 h⟩
  · rintro (⟨bytes, least, hbytes, hleast, hrefused⟩ | ⟨⟨bytes, least, hbytes, hleast, haccepted⟩, hR⟩)
    · refine ⟨bytes, (hx bytes).2 hbytes, least, hleast, ?_⟩
      rw [hrefused]
      rfl
    · refine ⟨bytes, (hx bytes).2 hbytes, least, hleast, ?_⟩
      rw [haccepted]
      exact (hrest least).2 hR

/-- The kinds are checked one after the other. -/
theorem sizes_eq_error_iff :
    config.sizes = .ok (.error e) ↔
      config.Answers .java (.error e) ∨ config.Answers .java (.ok ()) ∧
        (config.Answers .compiler (.error e) ∨ config.Answers .compiler (.ok ()) ∧
          config.Answers .vmInternal (.error e)) := by
  unfold StackConfig.sizes
  cases hzones : Checked.add config.guardZone config.shadowZone with
  | error fault =>
    -- Without a sum of the zones there is no number of bytes for the first kind.
    have hjava (answer : Except ServiceError Unit) : ¬ config.Answers .java answer := by
      rintro ⟨bytes, -, hbytes, -⟩
      have hlt := bytes.toNat_lt
      rw [needed] at hbytes
      rw [Checked.add_of_lt (by omega)] at hzones
      cases hzones
    simp only [hjava, false_and, or_false, iff_false]
    intro h
    cases h
  | ok zones =>
    have hsum (base bytes : UInt64) : Checked.add base zones = .ok bytes ↔
        bytes.toNat = base.toNat + (config.guardZone.toNat + config.shadowZone.toNat) := by
      rw [Checked.add_eq_ok_iff, Checked.toNat_of_add hzones]
    have hbase (bytes : UInt64) : Except.ok config.vmInternalBase = (.ok bytes : Except Fault UInt64) ↔
        bytes.toNat = config.vmInternalBase.toNat := by
      rw [Except.ok.injEq, UInt64.toNat_inj, eq_comm]
    refine check_eq_error_iff .java (hsum config.javaBase) fun java => ?_
    refine check_eq_error_iff .compiler (hsum config.compilerBase) fun compiler => ?_
    refine (check_eq_error_iff .vmInternal hbase fun vmInternal => ?_).trans (by rw [and_false, or_false])
    rw [Checked.bind_eq_ok_iff, iff_false]
    rintro ⟨atCreate, -, h⟩
    cases h

/-- A refusal is that of the first kind that is refused. -/
theorem sizes_eq_error_iff_first :
    config.sizes = .ok (.error e) ↔
      ∃ kind, config.Answers kind (.error e) ∧ ∀ k, turn k < turn kind → config.Answers k (.ok ()) := by
  rw [sizes_eq_error_iff]
  constructor
  · rintro (hjava | ⟨hjava, hcompiler | ⟨hcompiler, hvmInternal⟩⟩)
    · exact ⟨.java, hjava, fun k hk => absurd hk (Nat.not_lt_zero _)⟩
    · refine ⟨.compiler, hcompiler, fun k hk => ?_⟩
      cases k with
      | java => exact hjava
      | compiler | vmInternal | concurrentGc => exact absurd hk (by decide)
    · refine ⟨.vmInternal, hvmInternal, fun k hk => ?_⟩
      cases k with
      | java => exact hjava
      | compiler => exact hcompiler
      | vmInternal | concurrentGc => exact absurd hk (by decide)
  · rintro ⟨kind, hrefused, hbefore⟩
    cases kind with
    | java => exact .inl hrefused
    | compiler => exact .inr ⟨hbefore .java (by decide), .inl hrefused⟩
    | vmInternal | concurrentGc =>
      exact .inr ⟨hbefore .java (by decide), .inr ⟨hbefore .compiler (by decide), hrefused⟩⟩

/-! ## Another size for one kind -/

/-- The settings with another size for the stacks of a kind. -/
def withRequested (config : StackConfig) (size : UInt64) : ThreadKind → StackConfig
  | .java => { config with javaRequested := size }
  | .compiler => { config with compilerRequested := size }
  | .vmInternal | .concurrentGc => { config with vmRequested := size }

section withRequested

variable {size : UInt64} {answer : Except ServiceError Unit}

theorem minimum_withRequested (bytes : UInt64) :
    (config.withRequested size kind).minimum bytes = config.minimum bytes := by
  cases kind <;> rfl

theorem needed_withRequested (h : setting k = setting kind) :
    (config.withRequested size kind).needed k = config.needed kind := by
  cases k <;> cases kind <;> first | rfl | exact absurd h (by decide)

theorem requested_withRequested (h : setting k = setting kind) :
    (config.withRequested size kind).requested k = size := by
  cases k <;> cases kind <;> first | rfl | exact absurd h (by decide)

theorem turn_eq_of_setting (h : setting k = setting kind) : turn k = turn kind := by
  cases k <;> cases kind <;> first | rfl | exact absurd h (by decide)

/-- Kinds with other settings are checked as before. -/
theorem answers_withRequested_of_ne (h : setting k ≠ setting kind) :
    (config.withRequested size kind).Answers k answer ↔ config.Answers k answer := by
  cases k <;> cases kind <;> first | exact Iff.rfl | exact absurd rfl h

/-- The smallest stack does not depend on the size that is requested. -/
theorem answers_withRequested_of_eq {bytes least : UInt64} (h : setting k = setting kind)
    (hbytes : bytes.toNat = config.needed kind) (hleast : config.minimum bytes = .ok least) :
    (config.withRequested size kind).Answers k answer ↔ accept (setting kind) size least = answer := by
  rw [Answers, needed_withRequested h, requested_withRequested h, h]
  constructor
  · rintro ⟨bytes', least', hbytes', hleast', haccept⟩
    obtain rfl := UInt64.toNat_inj.1 (hbytes'.trans hbytes.symm)
    rw [minimum_withRequested, hleast] at hleast'
    exact Except.ok.inj hleast' ▸ haccept
  · intro haccept
    exact ⟨bytes, least, hbytes, (minimum_withRequested bytes).trans hleast, haccept⟩

/-- Where the kinds before are accepted, a size for a kind is refused or not as its own check says. -/
theorem sizes_withRequested_eq_error_iff {bytes least again : UInt64}
    (hbytes : bytes.toNat = config.needed kind) (hleast : config.minimum bytes = .ok least)
    (hbefore : ∀ k, turn k < turn kind → config.Answers k (.ok ())) :
    (config.withRequested size kind).sizes = .ok (.error (.stackTooSmall (setting kind) again)) ↔
      accept (setting kind) size least = .error (.stackTooSmall (setting kind) again) := by
  rw [sizes_eq_error_iff_first]
  constructor
  · rintro ⟨k, hrefused, -⟩
    exact (answers_withRequested_of_eq (setting_of_answers hrefused) hbytes hleast).1 hrefused
  · intro hrefused
    refine ⟨kind, (answers_withRequested_of_eq rfl hbytes hleast).2 hrefused, fun k hk => ?_⟩
    refine (answers_withRequested_of_ne fun hsame => ?_).2 (hbefore k hk)
    exact Nat.ne_of_lt hk (turn_eq_of_setting hsame)

end withRequested

/-! ## Following the advice -/

theorem dvd_smallest {least : UInt64} (hpower : Word.isPowerOfTwo config.pageSize = true)
    (h : config.Smallest kind least) (hpage : 1024 ≤ config.pageSize)
    (hhost : 1024 ∣ config.osMinimum.toNat) : 1024 ∣ least.toNat := by
  rcases h with ⟨n, hpages, hleast⟩ | ⟨-, rfl⟩
  · have hkibibyte : (1024 : UInt64).toNat ∣ config.pageSize.toNat :=
      Word.dvd_of_isPowerOfTwo (by decide) hpower hpage
    rw [hleast]
    rcases Nat.le_total n config.osMinimum.toNat with hle | hle
    · rwa [Nat.max_eq_right hle]
    · rw [Nat.max_eq_left hle]
      exact Nat.dvd_trans hkibibyte hpages.1.1.1
  · exact hhost

/-- The whole kibibytes in a number of bytes are fewer bytes, unless they are all of it. -/
theorem advice_lt_iff {least advised : UInt64} (h : advised.toNat = 1024 * (least.toNat / 1024)) :
    advised ≠ 0 ∧ advised < least ↔ 1024 ≤ least.toNat ∧ ¬ 1024 ∣ least.toNat := by
  rw [ne_eq, ← UInt64.toNat_inj, UInt64.lt_iff_toNat_lt, h, show (0 : UInt64).toNat = 0 from rfl]
  omega

/-- A requested size that is refused is below the smallest stack of its kind, and the advice is the
number of whole kibibytes in that. To ask for as much is refused again, with the same advice, exactly
if the smallest stack is a kibibyte or more and some bytes beyond the last whole one. This cannot be
where a page and the smallest stack of the host are of whole kibibytes. -/
theorem advice_refused_iff {σ : Type} {config : StackConfig} {name : String} {kib : UInt64} {s : σ}
    (h : ((config.setMinimumSizes : Op σ _).run s).result =
      .ok (.error (.stackTooSmall name kib))) :
    ∃ (kind : ThreadKind) (least advised : UInt64), setting kind = name ∧
      config.Smallest kind least ∧ config.requested kind ≠ 0 ∧ config.requested kind < least ∧
      kib.toNat = least.toNat / 1024 ∧ advised.toNat = 1024 * kib.toNat ∧
      (∀ again, (((config.withRequested advised kind).setMinimumSizes : Op σ _).run s).result =
          .ok (.error (.stackTooSmall name again)) ↔
        again = kib ∧ 1024 ≤ least.toNat ∧ ¬ 1024 ∣ least.toNat) ∧
      (1024 ≤ config.pageSize → 1024 ∣ config.osMinimum.toNat → 1024 ∣ least.toNat) := by
  obtain ⟨kind, ⟨bytes, least, hbytes, hleast, hrefused⟩, hbefore⟩ :=
    sizes_eq_error_iff_first.1 (result_setMinimumSizes_iff.1 h)
  obtain ⟨⟨hne, hlt⟩, hadvice⟩ := accept_eq_error_iff.1 hrefused
  obtain ⟨rfl, rfl⟩ := ServiceError.stackTooSmall.inj hadvice
  have hsmallest := smallest_of_minimum hbytes hleast
  have hkib : (least / 1024).toNat = least.toNat / 1024 := UInt64.toNat_div ..
  have hadvised : (1024 * (least / 1024)).toNat = 1024 * (least.toNat / 1024) := by
    have hbound := least.toNat_lt
    rw [UInt64.toNat_mul, hkib]
    exact Nat.mod_eq_of_lt (Nat.lt_of_le_of_lt (Nat.mul_div_le ..) hbound)
  refine ⟨kind, least, 1024 * (least / 1024), rfl, hsmallest, hne, hlt, hkib, hkib.symm ▸ hadvised,
    fun again => ?_, dvd_smallest (isPowerOfTwo_of_minimum hleast) hsmallest⟩
  rw [result_setMinimumSizes_iff, sizes_withRequested_eq_error_iff hbytes hleast hbefore,
    accept_eq_error_iff, advice_lt_iff hadvised, ServiceError.stackTooSmall.injEq,
    and_iff_right rfl, and_comm]

/-- The settings of a host with pages of 4 KiB and a size for managed threads. -/
def managed (osMinimum javaRequested : UInt64) : StackConfig :=
  (hosted osMinimum 65536).withRequested javaRequested .java

/-- Sixty-four kibibytes are refused, and the advice of a hundred and sixty is enough. -/
theorem advice_refused_iff_wholePages :
    (((managed 16384 65536).setMinimumSizes : Op Unit _).run ()).result =
        .ok (.error (.stackTooSmall "Java thread stack size" 160)) ∧
      ∀ again, (((managed 16384 163840).setMinimumSizes : Op Unit _).run ()).result ≠
        .ok (.error (.stackTooSmall "Java thread stack size" again)) := by
  have hrefused : (((managed 16384 65536).setMinimumSizes : Op Unit _).run ()).result =
      .ok (.error (.stackTooSmall "Java thread stack size" 160)) := by decide
  obtain ⟨kind, least, advised, hname, -, -, -, -, hadvised, hagain, hwhole⟩ :=
    advice_refused_iff hrefused
  obtain rfl : advised = 163840 := UInt64.toNat_inj.1 hadvised
  cases kind with
  | java => exact ⟨hrefused, fun again h => ((hagain again).1 h).2.2 (hwhole (by decide) (by decide))⟩
  | compiler | vmInternal | concurrentGc => exact absurd hname (by decide)

/-- Where the host's smallest stack is a mebibyte and a byte, a mebibyte is refused and advised. So are
sixty-four kibibytes where half a kibibyte more is the next whole page. -/
theorem advised_size_refused :
    (((managed 1048577 1048576).setMinimumSizes : Op Unit _).run ()).result =
        .ok (.error (.stackTooSmall "Java thread stack size" 1024)) ∧
      (({ hosted 16384 65537 with pageSize := 512, vmRequested := 65536 }.setMinimumSizes :
          Op Unit _).run ()).result =
        .ok (.error (.stackTooSmall "VMThreadStackSize" 64)) := by
  decide

end StackConfig

end HostServices
