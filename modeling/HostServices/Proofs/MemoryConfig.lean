import HostServices.MemoryConfig.Encoding
import HostServices.Proofs.Json.Codec
import HostServices.Proofs.Json.Record
import HostServices.Proofs.MallocLimit

/-!
# Memory configurations read back

Whatever codec writes and scans documents, the text of a configuration is read as that configuration,
and without the members of some names as that configuration with the defaults for those fields
(`decode_without`). The printed members are
read one by one, each as the field that it was printed for (`gives_of_mem`), and fields put one after
the other are fields put together (`foldl_overlay`).
-/

namespace HostServices

/-- A document without the members of some names. -/
def Json.without (names : List String) : Json → Json
  | .object members ending => .object (members.filter fun m => m.1.text ∉ names) ending
  | j => j

namespace MemoryConfig

variable (c : MemoryConfig)

/-! ## Fields by name -/

/-- The fields whose names have `p` from `c`, and all others from `d`. -/
def overlay (p : String → Prop) [DecidablePred p] (c d : MemoryConfig) : MemoryConfig where
  tracking := if p "tracking" then c.tracking else d.tracking
  mallocLimit := if p "malloc_limit" then c.mallocLimit else d.mallocLimit
  deterministicFill := if p "deterministic_fill" then c.deterministicFill else d.deterministicFill
  padFill := if p "pad_fill" then c.padFill else d.padFill
  verifyReallocCopy := if p "verify_realloc_copy" then c.verifyReallocCopy else d.verifyReallocCopy
  useLargePages := if p "use_large_pages" then c.useLargePages else d.useLargePages
  largePageSize := if p "large_page_size" then c.largePageSize else d.largePageSize
  catchPointer := if p "catch_ptr" then c.catchPointer else d.catchPointer

/-- The configuration with the defaults for the fields of some names. -/
def withDefaults (names : List String) : MemoryConfig :=
  overlay (· ∈ names) {} c

theorem overlay_overlay (p q : String → Prop) [DecidablePred p] [DecidablePred q]
    (d : MemoryConfig) : overlay p c (overlay q c d) = overlay (fun name => p name ∨ q name) c d := by
  simp only [overlay, ite_or]

theorem overlay_not (p : String → Prop) [DecidablePred p] (d : MemoryConfig) :
    overlay (fun name => ¬ p name) c d = overlay p d c := by
  simp only [overlay, ite_not]

/-- Fields put one after the other. -/
theorem foldl_overlay (names : List String) (d : MemoryConfig) :
    names.foldl (fun d name => overlay (· = name) c d) d = overlay (· ∈ names) c d := by
  induction names generalizing d with
  | nil => simp [overlay]
  | cons name names ih =>
    simp only [List.foldl_cons, ih, overlay_overlay, List.mem_cons, or_comm]

/-! ## Members -/

/-- The names of the fields. -/
def names : List String :=
  ["tracking", "malloc_limit", "deterministic_fill", "pad_fill", "verify_realloc_copy",
    "use_large_pages", "large_page_size", "catch_ptr"]

theorem nodup_names : names.Nodup := by decide

/-- Only the names of fields matter. -/
theorem overlay_congr {p q : String → Prop} [DecidablePred p] [DecidablePred q]
    (h : ∀ name ∈ names, p name ↔ q name) (d : MemoryConfig) : overlay p c d = overlay q c d := by
  simp only [names, List.forall_mem_cons] at h
  obtain ⟨h₁, h₂, h₃, h₄, h₅, h₆, h₇, h₈, -⟩ := h
  simp only [overlay, h₁, h₂, h₃, h₄, h₅, h₆, h₇, h₈]

/-- The printed members. -/
def members : List (Json.Token × Json) := [
  (⟨"tracking", true⟩, .ofString c.tracking.name),
  (⟨"malloc_limit", true⟩, .ofString c.mallocLimit.text),
  (⟨"deterministic_fill", true⟩, .bool c.deterministicFill),
  (⟨"pad_fill", true⟩, .bool c.padFill),
  (⟨"verify_realloc_copy", true⟩, .bool c.verifyReallocCopy),
  (⟨"use_large_pages", true⟩, .bool c.useLargePages),
  (⟨"large_page_size", true⟩, .ofOption .ofWord c.largePageSize),
  (⟨"catch_ptr", true⟩, .ofOption .ofWord c.catchPointer)]

theorem toJson_eq : c.toJson = .object c.members .closed :=
  rfl

theorem map_members : c.members.map (·.1.text) = names :=
  rfl

theorem readLimit_text (limit : MallocLimit) :
    readLimit (.ofString limit.text) = .ok limit := by
  have hparse : MallocLimit.parse limit.text.toList = .ok limit := by
    rw [MallocLimit.text, String.toList_ofList, MallocLimit.parse, MallocLimit.entries_render,
      MallocLimit.foldlM_printed]
  simp only [readLimit, Json.ofString, Json.toText, if_true, bind, Except.bind, hparse]
  rfl

theorem read_level (level : TrackingLevel) :
    Json.toName [("off", TrackingLevel.off), ("summary", .summary), ("detail", .detail)]
      (.ofString level.name) = .ok level := by
  cases level <;> exact Json.toName_ofString rfl

theorem read_word? (a? : Option UInt64) :
    Json.toOption Json.toWord (.ofOption .ofWord a?) = .ok a? :=
  Json.toOption_ofOption Json.toWord_ofWord (fun _ => nofun) a?

/-- Every printed member is read as the field that it was printed for. -/
theorem gives_of_mem {m : Json.Token × Json} (h : m ∈ c.members) :
    Json.Gives fields (fun name => overlay (· = name) c) m := by
  simp only [members, List.mem_cons, List.not_mem_nil, or_false] at h
  rcases h with rfl | rfl | rfl | rfl | rfl | rfl | rfl | rfl
  · exact Json.gives_of rfl (read_level c.tracking) fun _ => rfl
  · exact Json.gives_of rfl (readLimit_text c.mallocLimit) fun _ => rfl
  · exact Json.gives_of rfl (rfl : Json.toBool (.bool c.deterministicFill) = _) fun _ => rfl
  · exact Json.gives_of rfl (rfl : Json.toBool (.bool c.padFill) = _) fun _ => rfl
  · exact Json.gives_of rfl (rfl : Json.toBool (.bool c.verifyReallocCopy) = _) fun _ => rfl
  · exact Json.gives_of rfl (rfl : Json.toBool (.bool c.useLargePages) = _) fun _ => rfl
  · exact Json.gives_of rfl (read_word? c.largePageSize) fun _ => rfl
  · exact Json.gives_of rfl (read_word? c.catchPointer) fun _ => rfl

theorem plain_of_mem {m : Json.Token × Json} (h : m ∈ c.members) :
    m.1.paired = true ∧ m.2.Plain := by
  have hword (a? : Option UInt64) : (Json.ofOption Json.ofWord a?).Plain := by
    cases a? with
    | none => exact .null
    | some a => exact .word a
  simp only [members, List.mem_cons, List.not_mem_nil, or_false] at h
  rcases h with rfl | rfl | rfl | rfl | rfl | rfl | rfl | rfl
  · exact ⟨rfl, .string _⟩
  · exact ⟨rfl, .string _⟩
  · exact ⟨rfl, .bool _⟩
  · exact ⟨rfl, .bool _⟩
  · exact ⟨rfl, .bool _⟩
  · exact ⟨rfl, .bool _⟩
  · exact ⟨rfl, hword _⟩
  · exact ⟨rfl, hword _⟩

/-- Any of the printed members, read from their text. -/
theorem decode_of_sublist (C : Json.Codec) {kept : List (Json.Token × Json)}
    (h : kept.Sublist c.members) :
    C.decode ofJson (C.write (.object kept .closed)) =
      .ok (overlay (· ∈ kept.map (·.1.text)) c {}) := by
  have hnodup : (kept.map (·.1.text)).Nodup :=
    nodup_names.sublist (c.map_members ▸ h.map _)
  rw [C.decode_write ofJson (fun m hm => (c.plain_of_mem (h.subset hm)).1) hnodup
    fun m hm => (c.plain_of_mem (h.subset hm)).2]
  show Json.readMembers fields [] kept .closed {} = _
  rw [Json.readMembers_eq_foldl (fun m hm => c.gives_of_mem (h.subset hm)) hnodup fun _ _ => List.not_mem_nil,
    ← foldl_overlay, List.foldl_map]

/-- A configuration is read back from its text, and from its text without some of its fields as
the configuration with the defaults for exactly those. -/
theorem decode_without (C : Json.Codec) :
    C.decode ofJson (C.write c.toJson) = .ok c ∧
      ∀ removed, C.decode ofJson (C.write (c.toJson.without removed)) =
        .ok (c.withDefaults removed) := by
  refine ⟨?_, fun removed => ?_⟩
  · rw [toJson_eq, c.decode_of_sublist C (List.Sublist.refl _), map_members]
    rfl
  · have hkept : ∀ name ∈ names,
        name ∈ (c.members.filter fun m => m.1.text ∉ removed).map (·.1.text) ↔ name ∉ removed := by
      intro name hname
      obtain ⟨m, hm, rfl⟩ := List.mem_map.1 (c.map_members ▸ hname)
      simp only [List.mem_map, List.mem_filter, decide_eq_true_eq]
      constructor
      · rintro ⟨k, ⟨-, hk⟩, heq⟩
        exact heq ▸ hk
      · intro h
        exact ⟨m, ⟨hm, h⟩, rfl⟩
    rw [toJson_eq, Json.without, c.decode_of_sublist C List.filter_sublist, c.overlay_congr hkept,
      overlay_not, withDefaults]

/-- A configuration with ceilings and a largest page size, and no pointer to catch. -/
def capped : MemoryConfig where
  tracking := .detail
  mallocLimit := ⟨some 1073741824, fun c => if c = .compiler then some 524288000 else none⟩
  largePageSize := some 18446744073709551615

/-- Written and scanned by this library, the configuration comes back, and without its level and its
largest page size it comes back without those. -/
theorem decode_without_capped :
    Json.decode ofJson capped.toJson.render = .ok capped ∧
      Json.decode ofJson (capped.toJson.without ["tracking", "large_page_size"]).render =
        .ok { capped with tracking := .off, largePageSize := none } := by
  obtain ⟨hwhole, hwithout⟩ := capped.decode_without Json.codec
  have hdefaults : capped.withDefaults ["tracking", "large_page_size"] =
      { capped with tracking := .off, largePageSize := none } := by
    simp [withDefaults, overlay]
  have hrest := hwithout ["tracking", "large_page_size"]
  rw [Json.write_codec, Json.decode_codec] at hwhole hrest
  rw [hdefaults] at hrest
  exact ⟨hwhole, hrest⟩

end MemoryConfig

end HostServices
