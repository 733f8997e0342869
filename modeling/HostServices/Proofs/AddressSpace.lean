import HostServices.AddressSpace
import HostServices.Proofs.Checked
import HostServices.Proofs.Kernel

/-!
# Areas of whole pages

A call that fails changes nothing, and one that succeeds places an area, removes a range or changes
what lies in one. The calls only accept addresses that are multiples of the page size and round
lengths up, so in every state that a process can be in (`Reachable`) the areas are of whole pages
(`Reachable.paged`), and the calls do what is known of those of a kernel (`kernelContract`).
-/

namespace HostServices

/-! ## Parts of areas -/

namespace Area

variable {r p : Area} {lo hi : ℕ}

/-- An area of whole pages, and of at least one. -/
structure Whole (r : Area) : Prop where
  start_lt : r.start < r.stop
  dvd_start : AddressSpace.pageSize ∣ r.start
  dvd_stop : AddressSpace.pageSize ∣ r.stop

/-- The larger and the smaller of two multiples are multiples. -/
theorem dvd_max_and_min {d a b : ℕ} (ha : d ∣ a) (hb : d ∣ b) : d ∣ max a b ∧ d ∣ min a b := by
  rcases Nat.le_total a b with h | h
  · rw [Nat.max_eq_right h, Nat.min_eq_left h]
    exact ⟨hb, ha⟩
  · rw [Nat.max_eq_left h, Nat.min_eq_right h]
    exact ⟨ha, hb⟩

section

variable (hr : r.Whole) (hlo : AddressSpace.pageSize ∣ lo) (hhi : AddressSpace.pageSize ∣ hi)
include hr hlo hhi

theorem Whole.clip (h : r.clip lo hi = some p) : p.Whole := by
  unfold Area.clip at h
  dsimp only at h
  split at h
  · rename_i hlt
    cases h
    exact ⟨hlt, (dvd_max_and_min hr.dvd_start hlo).1, (dvd_max_and_min hr.dvd_stop hhi).2⟩
  · cases h

theorem Whole.outside (h : p ∈ r.outside lo hi) : p.Whole := by
  rw [Area.outside, List.mem_append, Option.mem_toList, Option.mem_toList] at h
  rcases h with hbelow | habove
  · exact hr.clip (Nat.dvd_zero _) hlo hbelow
  · exact hr.clip (dvd_max_and_min hlo hhi).1 hr.dvd_stop habove

/-- A change that keeps an area where it is. -/
theorem Whole.changeWithin {f : Area → Area}
    (hf : ∀ q, (f q).start = q.start ∧ (f q).stop = q.stop) (h : p ∈ r.changeWithin lo hi f) :
    p.Whole := by
  rw [Area.changeWithin, List.mem_append, Option.mem_toList, Option.map_eq_some_iff] at h
  rcases h with houtside | ⟨q, hq, rfl⟩
  · exact hr.outside hlo hhi houtside
  · obtain ⟨hlt, hstart, hstop⟩ := hr.clip hlo hhi hq
    obtain ⟨hfstart, hfstop⟩ := hf q
    exact ⟨by rw [hfstart, hfstop]; exact hlt, hfstart ▸ hstart, hfstop ▸ hstop⟩

end

end Area

namespace AddressSpace

variable {s : AddressSpace} {addr bytes base : UInt64} {p : Placement} {access : Access}
  {backing : Backing} {e : HostError} {lo hi a n : ℕ}

theorem le_roundUp (n : Nat) : n ≤ roundUp n := by
  unfold roundUp pageSize
  omega

theorem dvd_roundUp (n : ℕ) : pageSize ∣ roundUp n :=
  Nat.dvd_mul_left ..

/-! ## What calls do -/

theorem unmap_of_ok (h : (unmap addr bytes s).1 = .ok ()) :
    (unmap addr bytes s).2 = s.remove addr.toNat (addr.toNat + roundUp bytes.toNat) := by
  unfold unmap at h ⊢
  dsimp only at h ⊢
  split at h
  · cases h
  · rename_i hrange
    rw [if_neg hrange]

theorem unmap_of_error (h : (unmap addr bytes s).1 = .error e) : (unmap addr bytes s).2 = s := by
  unfold unmap at h ⊢
  dsimp only at h ⊢
  split at h
  · rename_i hrange
    rw [if_pos hrange]
  · cases h

/-- A range of whole pages below the limit can always be given back. -/
theorem unmap_of_dvd (haddr : pageSize ∣ addr.toNat) (hlimit : addr.toNat + bytes.toNat ≤ limit)
    (hbytes : bytes ≠ 0) : (unmap addr bytes s).1 = .ok () := by
  have hrange : ¬ (addr.toNat % pageSize ≠ 0 ∨ limit < addr.toNat + bytes.toNat ∨ bytes = 0) := by
    rintro (hmod | hbig | hzero)
    · exact hmod (Nat.mod_eq_zero_of_dvd haddr)
    · omega
    · exact hbytes hzero
  unfold unmap
  dsimp only
  rw [if_neg hrange]

theorem map_of_error (h : (map p bytes access backing s).1 = .error e) :
    (map p bytes access backing s).2 = s := by
  unfold map at h ⊢
  dsimp only at h ⊢
  split at h
  · rfl
  · cases h

/-- A mapping that succeeds has been located, and is put in place of what was there. -/
theorem map_of_ok (h : (map p bytes access backing s).1 = .ok base) :
    bytes ≠ 0 ∧ ∃ a, s.locate p (roundUp bytes.toNat) = .ok a ∧ base = .ofNat a ∧
      (map p bytes access backing s).2 =
        s.place ⟨a, a + roundUp bytes.toNat, access, backing, false⟩ := by
  unfold map at h ⊢
  dsimp only at h ⊢
  split at h
  · cases h
  · rename_i a hstart
    cases h
    by_cases hbytes : bytes = 0
    · rw [if_pos hbytes] at hstart
      cases hstart
    · by_cases hlen : limit < roundUp bytes.toNat
      · rw [if_neg hbytes, if_pos hlen] at hstart
        cases hstart
      · rw [if_neg hbytes, if_neg hlen] at hstart
        cases hlocate : s.locate p (roundUp bytes.toNat) with
        | error e =>
          rw [hlocate] at hstart
          cases hstart
        | ok b =>
          rw [hlocate] at hstart
          cases hadmits : admits (roundUp bytes.toNat) access backing with
          | error e =>
            rw [hadmits] at hstart
            cases hstart
          | ok u =>
            rw [hadmits] at hstart
            cases hstart
            exact ⟨hbytes, _, rfl, rfl, rfl⟩

theorem mapLarge_eq (addr bytes size : UInt64) (access : Access) (s : AddressSpace) :
    mapLarge addr bytes size access s =
      match s.refusal size with
      | some code => (.error (.code code), s)
      | none => map (.fixed addr) bytes access (.zeros false) s := by
  show (match s.refusal size with
    | some code => pure (.error (.code code))
    | none => map (.fixed addr) bytes access (.zeros false) :
      StateM AddressSpace (HostResult UInt64)) s = _
  cases s.refusal size <;> rfl

/-- Large pages that are refused leave everything as it was. -/
theorem mapLarge_of_error {size : UInt64} (h : (mapLarge addr bytes size access s).1 = .error e) :
    (mapLarge addr bytes size access s).2 = s := by
  rw [mapLarge_eq] at h ⊢
  cases hrefusal : s.refusal size with
  | some code => rfl
  | none =>
    rw [hrefusal] at h
    exact map_of_error h

/-- Large pages that are handed out are a mapping at the address. -/
theorem mapLarge_of_ok {size : UInt64} (h : (mapLarge addr bytes size access s).1 = .ok base) :
    mapLarge addr bytes size access s = map (.fixed addr) bytes access (.zeros false) s := by
  rw [mapLarge_eq] at h ⊢
  cases hrefusal : s.refusal size with
  | some code =>
    rw [hrefusal] at h
    cases h
  | none => rfl

/-! ## Where mappings go -/

/-- No area has addresses in a range. -/
def Clear (s : AddressSpace) (lo hi : ℕ) : Prop :=
  ∀ r ∈ s.areas, r.stop ≤ lo ∨ hi ≤ r.start

/-- The areas are of whole pages. -/
def Paged (s : AddressSpace) : Prop :=
  ∀ r ∈ s.areas, r.Whole

theorem Paged.clear (hs : s.Paged) (hlt : lo < hi) (h : s.isFree lo hi = true) : s.Clear lo hi := by
  intro r hr
  have hfree := List.all_eq_true.1 h r hr
  have hne := (hs r hr).start_lt
  simp only [Area.overlaps, Bool.not_eq_true', Bool.and_eq_false_iff, decide_eq_false_iff_not] at hfree
  omega

/-- The highest of some numbers is one of them. -/
theorem mem_of_foldl_max {starts : List ℕ} {best : Option ℕ}
    (h : starts.foldl (fun best a => some (best.elim a (Nat.max a))) best = some n) :
    n ∈ starts ∨ best = some n := by
  induction starts generalizing best with
  | nil => exact .inr h
  | cons a starts ih =>
    rcases ih h with hmem | hbest
    · exact .inl (List.mem_cons_of_mem _ hmem)
    · cases best with
      | none =>
        cases hbest
        exact .inl List.mem_cons_self
      | some b =>
        have hmax : max a b = n := Option.some.inj hbest
        rcases Nat.le_total a b with hle | hle
        · rw [Nat.max_eq_right hle] at hmax
          exact .inr (hmax ▸ rfl)
        · rw [Nat.max_eq_left hle] at hmax
          exact .inl (hmax ▸ List.mem_cons_self)

/-- There is room between areas, or above all of them. -/
theorem room?_eq_some (h : s.room? n = some a) :
    ∃ stop, (stop = ceiling ∨ ∃ r ∈ s.areas, r.start = stop) ∧ a + n = stop ∧ stop ≤ ceiling ∧
      s.isFree a stop = true := by
  unfold room? at h
  have hmem := (mem_of_foldl_max h).resolve_right nofun
  obtain ⟨stop, hstop, hfits⟩ := List.mem_filterMap.1 hmem
  split at hfits
  · rename_i hroom
    obtain ⟨hlen, hceiling, hfree⟩ := hroom
    cases hfits
    refine ⟨stop, ?_, by omega, hceiling, hfree⟩
    rcases List.mem_cons.1 hstop with rfl | hstop
    · exact .inl rfl
    · obtain ⟨r, hr, hstart⟩ := List.mem_map.1 hstop
      exact .inr ⟨r, hr, hstart⟩
  · cases hfits

/-- Room for whole pages lies on pages. -/
theorem Paged.room (hs : s.Paged) (hn : pageSize ∣ n) (hpos : 0 < n) (h : s.room? n = some a) :
    pageSize ∣ a ∧ a + n ≤ limit ∧ s.Clear a (a + n) := by
  obtain ⟨stop, hstop, rfl, hceiling, hfree⟩ := room?_eq_some h
  have hlimit : ceiling ≤ limit := by decide
  have hdvd : pageSize ∣ a + n := by
    rcases hstop with hstop | ⟨r, hr, hstop⟩
    · rw [hstop]
      decide
    · exact hstop ▸ (hs r hr).dvd_start
  exact ⟨(Nat.dvd_add_left hn).1 hdvd, Nat.le_trans hceiling hlimit, hs.clear (by omega) hfree⟩

/-- An address that is given is taken as it is, if it is on a page and leaves room below the limit. -/
theorem locate_fixed_of_ok (h : s.locate (.fixed addr) n = .ok a) :
    a = addr.toNat ∧ pageSize ∣ a ∧ a + n ≤ limit := by
  unfold locate at h
  dsimp only at h
  split at h
  · cases h
  · rename_i hbelow
    split at h
    · cases h
    · rename_i hmod
      cases h
      exact ⟨rfl, Nat.dvd_of_mod_eq_zero (Decidable.not_not.1 hmod), Nat.not_lt.1 hbelow⟩

theorem locate_fixedIfFree_of_ok (h : s.locate (.fixedIfFree addr) n = .ok a) :
    s.locate (.fixed addr) n = .ok a ∧ s.isFree a (a + n) = true := by
  obtain ⟨b, hb, hfree⟩ := Checked.bind_eq_ok_iff.1 h
  split at hfree
  · rename_i hfree'
    cases hfree
    exact ⟨hb, hfree'⟩
  · cases hfree

/-- A mapping goes to a multiple of the page size, below the limit, and where nothing is unless it is
put in place of that. -/
theorem Paged.locate (hs : s.Paged) (hn : pageSize ∣ n) (hpos : 0 < n) (h : s.locate p n = .ok a) :
    pageSize ∣ a ∧ a + n ≤ limit ∧ (p.keeps = true → s.Clear a (a + n)) := by
  cases p with
  | anywhere =>
    unfold AddressSpace.locate at h
    cases hroom : s.room? n with
    | none =>
      rw [hroom] at h
      cases h
    | some b =>
      rw [hroom] at h
      cases h
      obtain ⟨hdvd, hlimit, hclear⟩ := hs.room hn hpos hroom
      exact ⟨hdvd, hlimit, fun _ => hclear⟩
  | fixed addr =>
    obtain ⟨-, hdvd, hlimit⟩ := locate_fixed_of_ok h
    exact ⟨hdvd, hlimit, nofun⟩
  | fixedIfFree addr =>
    obtain ⟨hfixed, hfree⟩ := locate_fixedIfFree_of_ok h
    obtain ⟨-, hdvd, hlimit⟩ := locate_fixed_of_ok hfixed
    exact ⟨hdvd, hlimit, fun _ => hs.clear (by omega) hfree⟩

/-! ## Addresses in areas -/

/-- The addresses that lie in an area. -/
def addresses (s : AddressSpace) : Set ℕ :=
  {a | ∃ r ∈ s.areas, r.covers a = true}

theorem addresses_of_empty (h : s.areas = []) : s.addresses = ∅ := by
  ext a
  simp [addresses, h]

theorem addresses_of_areas {r : Area} (h : s.areas = [r]) : s.addresses = Set.Ico r.start r.stop := by
  ext a
  simp [addresses, h, Area.covers]

theorem mem_addresses_remove (h : lo ≤ hi) :
    a ∈ (s.remove lo hi).addresses ↔ a ∈ s.addresses ∧ (a < lo ∨ hi ≤ a) := by
  have houtside (r : Area) : (∃ p ∈ r.outside lo hi, p.covers a = true) ↔
      r.covers a = true ∧ (a < lo ∨ hi ≤ a) := by
    have hcovers := r.outside_covers lo hi a h
    rw [Bool.eq_iff_iff, List.any_eq_true] at hcovers
    simpa using hcovers
  constructor
  · rintro ⟨p, hp, hcovers⟩
    obtain ⟨r, hr, hp⟩ := List.mem_flatMap.1 hp
    obtain ⟨hr', hside⟩ := (houtside r).1 ⟨p, hp, hcovers⟩
    exact ⟨⟨r, hr, hr'⟩, hside⟩
  · rintro ⟨⟨r, hr, hcovers⟩, hside⟩
    obtain ⟨p, hp, hcovers'⟩ := (houtside r).2 ⟨hcovers, hside⟩
    exact ⟨p, List.mem_flatMap.2 ⟨r, hr, hp⟩, hcovers'⟩

theorem addresses_remove (h : lo ≤ hi) :
    (s.remove lo hi).addresses = s.addresses \ Set.Ico lo hi := by
  ext a
  rw [mem_addresses_remove h, Set.mem_sdiff, Set.mem_Ico]
  exact and_congr_right fun _ => by omega

/-- A mapping adds its range, whether something was there or not. -/
theorem addresses_place {r : Area} (h : r.start ≤ r.stop) :
    (s.place r).addresses = s.addresses ∪ Set.Ico r.start r.stop := by
  have hplace : (s.place r).addresses =
      Set.Ico r.start r.stop ∪ (s.remove r.start r.stop).addresses := by
    ext a
    have hcovers : r.covers a = true ↔ a ∈ Set.Ico r.start r.stop := by
      simp only [Area.covers, Bool.and_eq_true, decide_eq_true_eq, Set.mem_Ico]
    show (∃ q, q ∈ r :: (s.remove r.start r.stop).areas ∧ q.covers a = true) ↔ _
    rw [Set.mem_union, ← hcovers]
    simp only [List.mem_cons, exists_eq_or_imp]
    rfl
  rw [hplace, addresses_remove h, Set.union_comm, Set.sdiff_union_self]

theorem Clear.disjoint (h : s.Clear lo hi) : Disjoint s.addresses (Set.Ico lo hi) := by
  refine Set.disjoint_left.2 fun a ha hin => ?_
  obtain ⟨r, hr, hcovers⟩ := ha
  simp only [Area.covers, Bool.and_eq_true, decide_eq_true_eq] at hcovers
  obtain ⟨hlo, hhi⟩ := hin
  rcases h r hr with hbelow | habove <;> omega

/-! ## States of a process -/

theorem Paged.remove (hs : s.Paged) (hlo : pageSize ∣ lo) (hhi : pageSize ∣ hi) :
    (s.remove lo hi).Paged := by
  intro q hq
  obtain ⟨r, hr, hq⟩ := List.mem_flatMap.1 hq
  exact (hs r hr).outside hlo hhi hq

theorem Paged.place (hs : s.Paged) {r : Area} (hr : r.Whole) : (s.place r).Paged :=
  List.forall_mem_cons.2 ⟨hr, hs.remove hr.dvd_start hr.dvd_stop⟩

theorem Paged.changeWithin (hs : s.Paged) (hlo : pageSize ∣ lo) (hhi : pageSize ∣ hi)
    {f : Area → Area} (hf : ∀ q, (f q).start = q.start ∧ (f q).stop = q.stop) :
    (s.changeWithin lo hi f).Paged := by
  intro q hq
  obtain ⟨r, hr, hq⟩ := List.mem_flatMap.1 hq
  exact (hs r hr).changeWithin hlo hhi hf hq

/-- A mapping that succeeds is an area of whole pages at the answer, and one that replaces nothing is
where nothing was. -/
theorem Paged.map_eq_place (hs : s.Paged) (h : (map p bytes access backing s).1 = .ok base) :
    Area.Whole ⟨base.toNat, base.toNat + roundUp bytes.toNat, access, backing, false⟩ ∧
      base.toNat + roundUp bytes.toNat ≤ limit ∧
      (p.keeps = true → s.Clear base.toNat (base.toNat + roundUp bytes.toNat)) ∧
      (map p bytes access backing s).2 =
        s.place ⟨base.toNat, base.toNat + roundUp bytes.toNat, access, backing, false⟩ := by
  obtain ⟨hbytes, a, hlocate, rfl, hstate⟩ := map_of_ok h
  have hpos : 0 < roundUp bytes.toNat :=
    Nat.lt_of_lt_of_le (Nat.pos_of_ne_zero (Word.toNat_ne_zero hbytes)) (le_roundUp _)
  obtain ⟨hdvd, hlimit, hclear⟩ := hs.locate (dvd_roundUp _) hpos hlocate
  have hword : limit < 2 ^ 64 := by decide
  have hbase : (UInt64.ofNat a).toNat = a := by
    rw [UInt64.toNat_ofNat', Nat.mod_eq_of_lt (by omega)]
  rw [hbase]
  exact ⟨⟨Nat.lt_add_of_pos_right hpos, hdvd, Nat.dvd_add hdvd (dvd_roundUp _)⟩, hlimit, hclear,
    hstate⟩

theorem Paged.map (hs : s.Paged) (p : Placement) (bytes : UInt64) (access : Access)
    (backing : Backing) : (map p bytes access backing s).2.Paged := by
  cases hanswer : (AddressSpace.map p bytes access backing s).1 with
  | error e =>
    rw [map_of_error hanswer]
    exact hs
  | ok base =>
    obtain ⟨hwhole, -, -, hstate⟩ := hs.map_eq_place hanswer
    rw [hstate]
    exact hs.place hwhole

theorem Paged.unmap (hs : s.Paged) (addr bytes : UInt64) : (unmap addr bytes s).2.Paged := by
  unfold AddressSpace.unmap
  dsimp only
  split
  · exact hs
  · rename_i hrange
    have hdvd : pageSize ∣ addr.toNat :=
      Nat.dvd_of_mod_eq_zero (Decidable.not_not.1 fun hmod => hrange (.inl hmod))
    exact hs.remove hdvd (Nat.dvd_add hdvd (dvd_roundUp _))

/-- Where the mapped pages end is a multiple of the page size. -/
theorem Paged.dvd_mappedUntil (hs : s.Paged) (hhi : pageSize ∣ hi) (ha : pageSize ∣ a) (n : ℕ) :
    pageSize ∣ s.mappedUntil hi n a := by
  induction n generalizing a with
  | zero => exact ha
  | succ n ih =>
    unfold mappedUntil
    split
    · rename_i r hr
      split
      · exact ih (Area.dvd_max_and_min (hs r (List.mem_of_find?_eq_some hr)).dvd_stop hhi).2
      · exact ha
    · exact ha

theorem Paged.protect (hs : s.Paged) (addr bytes : UInt64) : (protect addr bytes s).2.Paged := by
  unfold AddressSpace.protect
  dsimp only
  split
  · exact hs
  · rename_i hmod
    have hdvd : pageSize ∣ addr.toNat := Nat.dvd_of_mod_eq_zero (Decidable.not_not.1 hmod)
    exact hs.changeWithin hdvd
      (hs.dvd_mappedUntil (Nat.dvd_add hdvd (dvd_roundUp _)) hdvd _) fun _ => ⟨rfl, rfl⟩

theorem Paged.preferLarge (hs : s.Paged) (addr bytes : UInt64) : (preferLarge addr bytes s).Paged := by
  unfold AddressSpace.preferLarge
  dsimp only
  by_cases hmod : addr.toNat % pageSize = 0
  · have hdvd := Nat.dvd_of_mod_eq_zero hmod
    split
    · exact hs
    · exact hs.changeWithin hdvd (Nat.dvd_add hdvd (dvd_roundUp _)) fun _ => ⟨rfl, rfl⟩
  · rw [adviceProblem, if_pos (.inl hmod)]
    exact hs

/-- The states that a process can be in: nothing is mapped at first, and then the calls change the
areas. What lies in the areas, the file and what the host refuses may change at any time. -/
inductive Reachable : AddressSpace → Prop
  | start {s : AddressSpace} (h : s.areas = []) : Reachable s
  | map {s : AddressSpace} (h : Reachable s) (p : Placement) (bytes : UInt64) (access : Access)
      (backing : Backing) : Reachable (map p bytes access backing s).2
  | unmap {s : AddressSpace} (h : Reachable s) (addr bytes : UInt64) :
      Reachable (unmap addr bytes s).2
  | protect {s : AddressSpace} (h : Reachable s) (addr bytes : UInt64) :
      Reachable (protect addr bytes s).2
  | preferLarge {s : AddressSpace} (h : Reachable s) (addr bytes : UInt64) :
      Reachable (preferLarge addr bytes s)
  | contents {s s' : AddressSpace} (h : Reachable s) (hareas : s'.areas = s.areas) : Reachable s'

theorem Reachable.paged (h : s.Reachable) : s.Paged := by
  induction h with
  | start h => exact fun r hr => absurd (h ▸ hr) List.not_mem_nil
  | map _ p bytes access backing ih => exact ih.map p bytes access backing
  | unmap _ addr bytes ih => exact ih.unmap addr bytes
  | protect _ addr bytes ih => exact ih.protect addr bytes
  | preferLarge _ addr bytes ih => exact ih.preferLarge addr bytes
  | contents _ hareas ih => exact fun r hr => ih r (hareas ▸ hr)

theorem Reachable.mapLarge (h : s.Reachable) (addr bytes size : UInt64) (access : Access) :
    (mapLarge addr bytes size access s).2.Reachable := by
  rw [mapLarge_eq]
  cases s.refusal size with
  | some code => exact h
  | none => exact h.map ..

/-- A mapping that replaces nothing adds whole pages where nothing was. -/
theorem Paged.addresses_map (hs : s.Paged) (hp : p.keeps = true)
    (h : (AddressSpace.map p bytes access backing s).1 = .ok base) :
    pageSize ∣ base.toNat ∧ base.toNat + roundUp bytes.toNat ≤ limit ∧
      Disjoint s.addresses (Set.Ico base.toNat (base.toNat + roundUp bytes.toNat)) ∧
      (AddressSpace.map p bytes access backing s).2.addresses =
        s.addresses ∪ Set.Ico base.toNat (base.toNat + roundUp bytes.toNat) := by
  obtain ⟨hwhole, hlimit, hclear, hstate⟩ := hs.map_eq_place h
  rw [hstate]
  exact ⟨hwhole.dvd_start, hlimit, (hclear hp).disjoint, addresses_place (Nat.le_add_right ..)⟩

theorem addresses_mapLarge {size : UInt64} (h : (mapLarge addr bytes size access s).1 = .ok base) :
    base = addr ∧ (mapLarge addr bytes size access s).2.addresses =
      s.addresses ∪ Set.Ico addr.toNat (addr.toNat + roundUp bytes.toNat) := by
  have hmap := mapLarge_of_ok h
  rw [hmap] at h ⊢
  obtain ⟨-, a, hlocate, rfl, hstate⟩ := map_of_ok h
  obtain rfl := (locate_fixed_of_ok hlocate).1
  rw [hstate]
  exact ⟨UInt64.ofNat_toNat, addresses_place (Nat.le_add_right ..)⟩

theorem addresses_unmap (haddr : pageSize ∣ addr.toNat)
    (hlimit : addr.toNat + roundUp bytes.toNat ≤ limit) (hbytes : bytes ≠ 0) :
    (unmap addr bytes s).1 = .ok () ∧ (unmap addr bytes s).2.addresses =
      s.addresses \ Set.Ico addr.toNat (addr.toNat + roundUp bytes.toNat) := by
  have hok : (unmap addr bytes s).1 = .ok () :=
    unmap_of_dvd haddr (Nat.le_trans (Nat.add_le_add_left (le_roundUp _) _) hlimit) hbytes
  rw [unmap_of_ok hok]
  exact ⟨hok, addresses_remove (Nat.le_add_right ..)⟩

theorem addresses_unmap_zero (s : AddressSpace) (addr : UInt64) :
    (unmap addr 0 s).2.addresses = s.addresses := by
  have hrefused : (unmap addr 0 s).1 = .error (.code .invalid) := by
    unfold unmap
    dsimp only
    rw [if_pos (.inr (.inr rfl))]
  rw [unmap_of_error hrefused]

/-- The calls do what is known of those of a kernel. Large pages that are refused cost nothing here. -/
def kernelContract : KernelContract AddressSpace where
  states := {s | s.Reachable}
  mapped := addresses
  limit := limit
  limit_lt := by decide
  isPowerOfTwo_pageSize := by decide
  map_mem hs p bytes access reserved := hs.map p bytes access (.zeros reserved)
  mapLarge_mem hs addr bytes size access := hs.mapLarge addr bytes size access
  unmap_mem hs addr bytes := hs.unmap addr bytes
  mapped_map_of_error _ _ _ _ _ _ _ h := congrArg addresses (map_of_error h)
  map_of_ok hs _ hp _ _ _ _ h := hs.paged.addresses_map hp h
  mapped_mapLarge_of_error {s} _ addr bytes size access _ _ h := by
    have hsame : (Kernel.mapLarge addr bytes size access s).2 = s := mapLarge_of_error h
    rw [hsame]
    exact ⟨Set.Subset.rfl, Set.sdiff_subset⟩
  mapLarge_of_ok _ _ _ _ _ _ _ h := addresses_mapLarge h
  unmap_of_dvd _ _ _ haddr hlimit hbytes := addresses_unmap haddr hlimit hbytes
  mapped_unmap_zero _ addr := addresses_unmap_zero _ addr

end AddressSpace

end HostServices
