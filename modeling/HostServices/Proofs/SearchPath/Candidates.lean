import HostServices.Proofs.SearchPath

/-!
# The paths that a search asks for

A search along a list asks the file system about the file in one directory after the other, up to the
first that is there: these are the paths on which its answer depends (`asks_iff`). A list is accepted
if each element leaves room for the file name, but the path of a file may need a slash besides. So a
path that is asked for is at most one byte longer than the host's longest, and none is longer exactly
if the list is refused or no element without a slash at its end leaves just the room for the file name
(`asked_within_iff`).
-/

namespace HostServices.SearchPath

variable {search name path file directory : String} {files : Files} {ds : List String}

/-! ## Lengths -/

theorem utf8ByteSize_inDirectory (directory file : String) :
    (inDirectory directory file).utf8ByteSize = directory.utf8ByteSize + file.utf8ByteSize +
      if directory.toList.getLast? = some slash then 0 else 1 := by
  unfold inDirectory
  split
  · rw [String.utf8ByteSize_append, Nat.add_zero]
  · have hslash : slash.utf8Size = 1 := by decide
    rw [String.utf8ByteSize_append, String.utf8ByteSize_append, String.utf8ByteSize_singleton, hslash]
    omega

theorem utf8ByteSize_libraryFile (name : String) :
    (libraryFile name).utf8ByteSize = name.utf8ByteSize + 6 := by
  have hparts : libraryFile name = "lib" ++ name ++ ".so" := rfl
  have hlib : "lib".utf8ByteSize = 3 := by decide
  have hso : ".so".utf8ByteSize = 3 := by decide
  rw [hparts, String.utf8ByteSize_append, String.utf8ByteSize_append, hlib, hso]
  omega

theorem inDirectory_ne_empty (directory : String) (hfile : file ≠ "") : inDirectory directory file ≠ "" := by
  intro hempty
  have hsize := utf8ByteSize_inDirectory directory file
  rw [hempty, String.utf8ByteSize_empty] at hsize
  exact hfile (String.utf8ByteSize_eq_zero_iff.1 (by omega))

theorem utf8ByteSize_le_intercalate {e : String} {es : List String} (sep : String) (h : e ∈ es) :
    e.utf8ByteSize ≤ (sep.intercalate es).utf8ByteSize := by
  induction es with
  | nil => cases h
  | cons a es ih =>
    cases es with
    | nil =>
      rw [List.mem_singleton.1 h, String.intercalate_singleton]
    | cons b es =>
      rw [String.intercalate_cons_cons, String.utf8ByteSize_append, String.utf8ByteSize_append]
      rcases List.mem_cons.1 h with rfl | htail
      · omega
      · have htail := ih htail
        omega

theorem utf8ByteSize_le_of_mem_elements {e : String} (h : e ∈ elements search) :
    e.utf8ByteSize ≤ search.utf8ByteSize := by
  have hle := utf8ByteSize_le_intercalate (String.singleton separator) h
  rwa [(divides_elements search).intercalate_eq] at hle

/-! ## What an answer depends on -/

/-- The same files, but for whether one path is there. -/
def Files.flip (files : Files) (path : String) : Files :=
  { files with contains := fun p => if p = path then !files.contains p else files.contains p }

/-- A search asks whether a path is there: its answer depends on that. -/
def Asks (files : Files) (search name path : String) : Prop :=
  locate (files.flip path) search name ≠ locate files search name

theorem present_flip_self (files : Files) (h : path ≠ "") :
    (files.flip path).present path = !files.present path := by
  have hne : (path != "") = true := bne_iff_ne.2 h
  simp [Files.present, Files.flip, hne]

theorem present_flip_of_ne {p : String} (files : Files) (h : p ≠ path) :
    (files.flip path).present p = files.present p := by
  simp [Files.present, Files.flip, h]

theorem probe_of_present (h : files.present (inDirectory directory file) = true) :
    probe files file directory = some (inDirectory directory file) :=
  if_pos h

theorem probe_of_absent (h : files.present (inDirectory directory file) = false) :
    probe files file directory = none :=
  if_neg (Bool.eq_false_iff.1 h)

/-- What is found is there. -/
theorem present_of_findSome? (h : ds.findSome? (probe files file) = some path) :
    files.present path = true := by
  obtain ⟨d, -, hprobe⟩ := List.exists_of_findSome?_eq_some h
  unfold probe at hprobe
  dsimp only at hprobe
  split at hprobe
  · rename_i hpresent
    cases hprobe
    exact hpresent
  · cases hprobe

theorem findSome?_of_present {d : String} (h : files.present (inDirectory d file) = true) :
    (d :: ds).findSome? (probe files file) = some (inDirectory d file) := by
  rw [List.findSome?_cons, probe_of_present h]

theorem findSome?_of_absent {d : String} (h : files.present (inDirectory d file) = false) :
    (d :: ds).findSome? (probe files file) = ds.findSome? (probe files file) := by
  rw [List.findSome?_cons, probe_of_absent h]

/-- A search along directories comes to a path: the file is in none of the directories before it. -/
def Reaches (files : Files) (file path : String) (ds : List String) : Prop :=
  ∃ before d after, ds = before ++ d :: after ∧ inDirectory d file = path ∧
    ∀ b ∈ before, files.present (inDirectory b file) = false

theorem reaches_cons_iff {d : String} : Reaches files file path (d :: ds) ↔
    inDirectory d file = path ∨
      files.present (inDirectory d file) = false ∧ Reaches files file path ds := by
  constructor
  · rintro ⟨before, d', after, heq, hd', hbefore⟩
    cases before with
    | nil =>
      cases heq
      exact .inl hd'
    | cons b before =>
      cases heq
      obtain ⟨hb, hbefore⟩ := List.forall_mem_cons.1 hbefore
      exact .inr ⟨hb, before, d', after, rfl, hd', hbefore⟩
  · rintro (hd | ⟨hd, before, d', after, rfl, hd', hbefore⟩)
    · exact ⟨[], d, ds, rfl, hd, nofun⟩
    · exact ⟨d :: before, d', after, rfl, hd', List.forall_mem_cons.2 ⟨hd, hbefore⟩⟩

/-- The first answer depends on the path of the file in the first directory: one of two searches finds
the path there, and the other one cannot find it. -/
theorem findSome?_flip_self_ne (hfile : file ≠ "") (d : String) :
    (d :: ds).findSome? (probe (files.flip (inDirectory d file)) file) ≠
      (d :: ds).findSome? (probe files file) := by
  intro heq
  have hflip := present_flip_self files (inDirectory_ne_empty d hfile)
  cases hpresent : files.present (inDirectory d file) with
  | true =>
    rw [hpresent] at hflip
    rw [findSome?_of_present hpresent, findSome?_of_absent hflip] at heq
    rw [present_of_findSome? heq] at hflip
    cases hflip
  | false =>
    rw [hpresent] at hflip
    rw [findSome?_of_absent hpresent, findSome?_of_present hflip] at heq
    rw [present_of_findSome? heq.symm] at hpresent
    cases hpresent

/-- A search along directories depends on the paths that it comes to. -/
theorem findSome?_flip_ne_iff (hfile : file ≠ "") :
    ds.findSome? (probe (files.flip path) file) ≠ ds.findSome? (probe files file) ↔
      Reaches files file path ds := by
  induction ds with
  | nil => simp [Reaches]
  | cons d ds ih =>
    rw [reaches_cons_iff]
    by_cases hd : inDirectory d file = path
    · subst hd
      exact iff_of_true (findSome?_flip_self_ne hfile d) (.inl rfl)
    · rw [or_iff_right hd, ← ih]
      have hflip := present_flip_of_ne files hd
      cases hpresent : files.present (inDirectory d file) with
      | true =>
        rw [findSome?_of_present hpresent, findSome?_of_present (hflip.trans hpresent)]
        exact iff_of_false (fun hne => hne rfl) nofun
      | false =>
        rw [findSome?_of_absent hpresent, findSome?_of_absent (hflip.trans hpresent)]
        exact (and_iff_right rfl).symm

/-! ## A search along a list -/

/-- No file is there. -/
def Files.nothing : Files := ⟨fun _ => false, .ok "/"⟩

section

variable (hsep : separator ∈ search.toList)
include hsep

theorem ne_empty_of_separator : search ≠ "" := by
  rintro rfl
  cases hsep

theorem locate_of_separator (files : Files) (name : String) :
    locate files search name = (split search (byteLength (libraryFile name))).map
      (·.map fun ds => (ds.filter (· ≠ "")).findSome? (probe files (libraryFile name))) := by
  unfold locate
  rw [if_neg (ne_empty_of_separator hsep), if_pos hsep]
  cases split search (byteLength (libraryFile name)) <;> rfl

variable (hsearch : search.utf8ByteSize < 2 ^ 63) (hname : (libraryFile name).utf8ByteSize < 2 ^ 63)
include hsearch hname

theorem split_libraryFile :
    split search (byteLength (libraryFile name)) =
      accept (byteLength (libraryFile name)) (elements search) ∧
    ∀ e ∈ elements search,
      e.utf8ByteSize + (byteLength (libraryFile name)).toNat < 2 ^ 64 := by
  have hlength : (byteLength (libraryFile name)).toNat = (libraryFile name).utf8ByteSize :=
    toNat_byteLength (Nat.lt_of_lt_of_le hname (by decide))
  have hsize := utf8ByteSize_libraryFile name
  refine ⟨split_eq_accept (ne_empty_of_separator hsep) ?_, fun e he => ?_⟩
  · rw [UInt64.lt_iff_toNat_lt, hlength, hsize]
    exact Nat.succ_pos _
  · have hle := utf8ByteSize_le_of_mem_elements he
    omega

/-- A search along a list asks for the file in the elements that are not empty, up to the first where
it is, if every element leaves room for the file name. -/
theorem asks_iff : Asks files search name path ↔
    (∀ e ∈ elements search, Fits (byteLength (libraryFile name)) e) ∧
      Reaches files (libraryFile name) path ((elements search).filter (· ≠ "")) := by
  obtain ⟨hsplit, hsum⟩ := split_libraryFile hsep hsearch hname
  have hfile : libraryFile name ≠ "" := by
    intro hempty
    have hsize := utf8ByteSize_libraryFile name
    rw [hempty] at hsize
    cases hsize
  unfold Asks
  rw [locate_of_separator hsep, locate_of_separator hsep, hsplit]
  rcases fits_or_first (byteLength (libraryFile name)) (elements search) with
    hfits | ⟨before, e, after, hes, hbefore, hlong⟩
  · rw [accept_of_fits hsum hfits, ← findSome?_flip_ne_iff hfile, and_iff_right hfits]
    refine not_congr ⟨fun heq => ?_, fun heq => ?_⟩
    · exact Except.ok.inj (Except.ok.inj heq)
    · exact congrArg (fun found => Except.ok (Except.ok found)) heq
  · have he : e ∈ elements search := hes ▸ List.mem_append_right before List.mem_cons_self
    have hanswer := accept_of_first after
      (fun b hb => hsum b (hes ▸ List.mem_append_left _ hb)) (hsum e he) hbefore hlong
    rw [← hes] at hanswer
    rw [hanswer]
    exact iff_of_false (fun hne => hne rfl) fun hasked => hlong (hasked.1 e he)

/-- A path that is asked for is that of the library in an element, and every element fits. -/
theorem element_of_asks (h : Asks files search name path) :
    (∀ e ∈ elements search, Fits (byteLength (libraryFile name)) e) ∧
      ∃ d ∈ elements search, d ≠ "" ∧ path = inDirectory d (libraryFile name) := by
  obtain ⟨hfits, before, d, after, hds, rfl, -⟩ := (asks_iff hsep hsearch hname).1 h
  have hd : d ∈ (elements search).filter (· ≠ "") :=
    hds ▸ List.mem_append_right before List.mem_cons_self
  rw [List.mem_filter, decide_eq_true_eq] at hd
  exact ⟨hfits, d, hd.1, hd.2, rfl⟩

/-- Where no file is, a search asks for the library in every element. -/
theorem asks_nothing (hfits : ∀ e ∈ elements search, Fits (byteLength (libraryFile name)) e)
    (hd : directory ∈ elements search) (hne : directory ≠ "") :
    Asks .nothing search name (inDirectory directory (libraryFile name)) := by
  obtain ⟨before, after, hds⟩ := List.append_of_mem
    (List.mem_filter.2 ⟨hd, decide_eq_true hne⟩ : directory ∈ (elements search).filter (· ≠ ""))
  exact (asks_iff hsep hsearch hname).2
    ⟨hfits, before, directory, after, hds, rfl, fun b _ => Bool.and_false _⟩

end

/-- A path that a search along a list asks for is that of the library in an element, and at most one
byte longer than the host's longest path. None is longer, whatever files there are, exactly if the
list is refused or every element has a slash at its end or room for one. (No text of a process has
more than 2^63 - 1 bytes.) -/
theorem asked_within_iff {search name : String} (hsep : separator ∈ search.toList)
    (hsearch : search.utf8ByteSize < 2 ^ 63) (hname : (libraryFile name).utf8ByteSize < 2 ^ 63) :
    (∀ files path, Asks files search name path →
        (∃ d ∈ elements search, d ≠ "" ∧ path = inDirectory d (libraryFile name)) ∧
          path.utf8ByteSize ≤ longest.toNat + 1) ∧
      ((∀ files path, Asks files search name path → path.utf8ByteSize ≤ longest.toNat) ↔
        (∃ e ∈ elements search,
            longest.toNat < e.utf8ByteSize + (libraryFile name).utf8ByteSize) ∨
          ∀ d ∈ elements search, d ≠ "" → d.toList.getLast? = some slash ∨
            d.utf8ByteSize + (libraryFile name).utf8ByteSize ≠ longest.toNat) := by
  have hlength : (byteLength (libraryFile name)).toNat = (libraryFile name).utf8ByteSize :=
    toNat_byteLength (Nat.lt_of_lt_of_le hname (by decide))
  refine ⟨fun files path h => ?_, fun hwithin => ?_, fun hlist files path h => ?_⟩
  · obtain ⟨hfits, d, hd, hne, rfl⟩ := element_of_asks hsep hsearch hname h
    have hroom : d.utf8ByteSize + (byteLength (libraryFile name)).toNat ≤ longest.toNat := hfits d hd
    refine ⟨⟨d, hd, hne, rfl⟩, ?_⟩
    rw [utf8ByteSize_inDirectory]
    split <;> omega
  · refine or_iff_not_imp_left.2 fun hnone d hd hne => or_iff_not_imp_left.2 fun hslash hfull => ?_
    have hfits (e : String) (he : e ∈ elements search) : Fits (byteLength (libraryFile name)) e := by
      rw [Fits, hlength]
      exact Nat.not_lt.1 fun hlong => hnone ⟨e, he, hlong⟩
    have hlong := hwithin .nothing (inDirectory d (libraryFile name))
      (asks_nothing hsep hsearch hname hfits hd hne)
    rw [utf8ByteSize_inDirectory, if_neg hslash] at hlong
    omega
  · obtain ⟨hfits, d, hd, hne, rfl⟩ := element_of_asks hsep hsearch hname h
    have hroom (e : String) (he : e ∈ elements search) :
        e.utf8ByteSize + (libraryFile name).utf8ByteSize ≤ longest.toNat := hlength ▸ hfits e he
    rcases hlist with ⟨e, he, hlong⟩ | hends
    · exact absurd (hroom e he) (Nat.not_le.2 hlong)
    · have hd' := hroom d hd
      rw [utf8ByteSize_inDirectory]
      rcases hends d hd hne with hslash | hfull
      · rw [if_pos hslash]
        exact hd'
      · split <;> omega

/-- A directory of `n` letters and a last character. -/
def directoryOf (n : ℕ) (last : Char) : String :=
  String.ofList (List.replicate n 'd' ++ [last])

theorem utf8ByteSize_directoryOf (n : ℕ) (last : Char) :
    (directoryOf n last).utf8ByteSize = n + last.utf8Size := by
  have hletters : (String.ofList (List.replicate n 'd')).utf8ByteSize = n := by
    induction n with
    | zero => rfl
    | succ n ih =>
      have hletter : 'd'.utf8Size = 1 := by decide
      rw [List.replicate_succ, String.ofList_cons, String.utf8ByteSize_append, ih,
        String.utf8ByteSize_singleton, hletter, Nat.add_comm]
  rw [directoryOf, String.ofList_append, String.utf8ByteSize_append, hletters,
    ← String.singleton_eq_ofList, String.utf8ByteSize_singleton]

theorem getLast?_directoryOf (n : ℕ) (last : Char) :
    (directoryOf n last).toList.getLast? = some last := by
  rw [directoryOf, String.toList_ofList, List.getLast?_concat]

/-- A directory in front of a separator. -/
theorem elements_directoryOf {n : ℕ} {last : Char} (h : last ≠ separator) :
    elements (directoryOf n last ++ String.singleton separator) = [directoryOf n last, ""] := by
  have hletter : 'd' ≠ separator := by decide
  have hnotMem : separator ∉ (directoryOf n last).toList := by
    simp [directoryOf, h.symm, hletter.symm]
  refine (divides_iff.1 ⟨?_, ?_, ?_⟩).symm
  · rw [String.toList_append, String.toList_singleton, List.count_append,
      List.count_eq_zero_of_not_mem hnotMem, List.count_singleton_self]
    rfl
  · simp [hnotMem]
  · rw [String.intercalate_cons_cons, String.intercalate_singleton, String.append_empty]

/-- A directory of 4087 bytes with a slash at its end: the path of the library has just 4096. -/
theorem asked_within_iff_slashAtEnd :
    separator ∈ (directoryOf 4086 slash ++ String.singleton separator).toList ∧
      (directoryOf 4086 slash).utf8ByteSize + (libraryFile "net").utf8ByteSize = 4096 ∧
      ∀ files path, Asks files (directoryOf 4086 slash ++ String.singleton separator) "net" path →
        path.utf8ByteSize ≤ 4096 := by
  have hsep : separator ∈ (directoryOf 4086 slash ++ String.singleton separator).toList := by simp
  have hsize := utf8ByteSize_directoryOf 4086 slash
  have hslash : slash.utf8Size = 1 := by decide
  have hfile : (libraryFile "net").utf8ByteSize = 9 := by decide
  have hbyte : separator.utf8Size = 1 := by decide
  obtain ⟨-, hwithin⟩ := @asked_within_iff _ "net" hsep
    (by rw [String.utf8ByteSize_append, hsize, String.utf8ByteSize_singleton, hslash, hbyte]; decide)
    (by rw [hfile]; decide)
  refine ⟨hsep, by rw [hsize, hslash, hfile], hwithin.2 (.inr fun d hd hne => .inl ?_)⟩
  rw [elements_directoryOf (by decide)] at hd
  rcases List.mem_cons.1 hd with rfl | hempty
  · exact getLast?_directoryOf 4086 slash
  · exact absurd (List.mem_singleton.1 hempty) hne

/-- A directory of 4087 bytes without a slash at its end: it leaves room for the file name, so the list
is accepted, and the path that is asked for has one byte too many. -/
theorem asks_for_overlong_path :
    Asks .nothing (directoryOf 4086 'd' ++ String.singleton separator) "net"
        (inDirectory (directoryOf 4086 'd') (libraryFile "net")) ∧
      (inDirectory (directoryOf 4086 'd') (libraryFile "net")).utf8ByteSize = 4097 ∧
      longest = 4096 := by
  have hsize := utf8ByteSize_directoryOf 4086 'd'
  have hletter : 'd'.utf8Size = 1 := by decide
  have hbyte : separator.utf8Size = 1 := by decide
  have hfile : (libraryFile "net").utf8ByteSize = 9 := by decide
  have helements : elements (directoryOf 4086 'd' ++ String.singleton separator) =
      [directoryOf 4086 'd', ""] := elements_directoryOf (by decide)
  refine ⟨asks_nothing (by simp) ?_ (by rw [hfile]; decide) (fun e he => ?_) ?_ ?_, ?_, rfl⟩
  · rw [String.utf8ByteSize_append, hsize, String.utf8ByteSize_singleton, hletter, hbyte]
    decide
  · rw [helements] at he
    rcases List.mem_cons.1 he with rfl | hempty
    · rw [Fits, hsize, hletter]
      decide
    · rw [List.mem_singleton.1 hempty]
      decide
  · rw [helements]
    exact List.mem_cons_self
  · intro hempty
    rw [hempty] at hsize
    cases hsize
  · rw [utf8ByteSize_inDirectory, getLast?_directoryOf, hsize, hletter, hfile]
    decide

end HostServices.SearchPath
