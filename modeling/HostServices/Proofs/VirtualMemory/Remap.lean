import HostServices.PosixHost
import HostServices.Proofs.AddressSpace
import HostServices.Proofs.VirtualMemory.Mapping

/-!
# Remaps that fail

A host without a remap of its own unmaps the range and then maps the view. `MapContract` states
what these two calls do to the addresses that are mapped: nothing where they fail, and an unmapped
range has none left. A remap that fails leaves the tracker as it was, so the tracker goes on
agreeing with the host exactly if the range was not unmapped or had nothing tracked
(`remap_error_agrees_iff`). The address space of a process keeps the contract.
-/

namespace HostServices

variable {π : Type}

/-- Put another view into the place of a mapping, in two calls. -/
def MemoryHost.unmapThenMap [MemoryHost π] (view : FileView) (addr bytes : UInt64) :
    Op π (HostResult UInt64) := do
  match ← unmap addr bytes with
  | .ok () => mapFile view (some addr) bytes
  | .error e => return .error e

/-- The addresses that are mapped in each state of a host, and what the calls that a remap is made
of do to them. -/
structure MapContract (π : Type) [MemoryHost π] where
  mapped : π → Set UInt64
  unmapped {addr bytes : UInt64} {s : π} :
    ((MemoryHost.unmap addr bytes).run s).result = .ok (.ok ()) →
      mapped ((MemoryHost.unmap addr bytes).run s).state ⊆ mapped s \ Word.span addr bytes
  notUnmapped {addr bytes : UInt64} {s : π} {e : HostError} :
    ((MemoryHost.unmap addr bytes).run s).result = .ok (.error e) →
      mapped ((MemoryHost.unmap addr bytes).run s).state = mapped s
  notMapped {view : FileView} {addr bytes : UInt64} {s : π} {e : HostError} :
    ((MemoryHost.mapFile view (some addr) bytes).run s).result = .ok (.error e) →
      mapped ((MemoryHost.mapFile view (some addr) bytes).run s).state = mapped s

/-- A failed remap has unmapped nothing, or all of its range. -/
theorem MapContract.unmapThenMap_cases [MemoryHost π] (M : MapContract π) {view : FileView}
    {addr bytes : UInt64} {s : π} {e : HostError}
    (h : ((MemoryHost.unmapThenMap view addr bytes).run s).result = .ok (.error e)) :
    (((MemoryHost.unmap addr bytes).run s).result ≠ .ok (.ok ()) ∧
        M.mapped ((MemoryHost.unmapThenMap view addr bytes).run s).state = M.mapped s) ∨
      (((MemoryHost.unmap addr bytes).run s).result = .ok (.ok ()) ∧
        M.mapped ((MemoryHost.unmapThenMap view addr bytes).run s).state ⊆
          M.mapped s \ Word.span addr bytes) := by
  unfold MemoryHost.unmapThenMap at h ⊢
  cases hunmap : ((MemoryHost.unmap addr bytes).run s).result with
  | error stop =>
    rw [Op.result_bind_of_error hunmap] at h
    cases h
  | ok answer =>
    rw [Op.result_bind_of_ok hunmap] at h
    rw [Op.state_bind_of_ok hunmap]
    cases answer with
    | error e' => exact .inl ⟨nofun, M.notUnmapped hunmap⟩
    | ok u =>
      refine .inr ⟨rfl, ?_⟩
      dsimp only at h ⊢
      rw [M.notMapped h]
      exact M.unmapped hunmap

namespace VirtualMemory

variable [MemoryHost π] {v : VirtualMemory π} {view : FileView} {addr bytes : UInt64}

/-- The tracker reports no address of a range that the host has not mapped. -/
def Agrees (M : MapContract π) (v : VirtualMemory π) (range : Set UInt64) : Prop :=
  ∀ a ∈ range, v.tracker.status a ≠ none → a ∈ M.mapped v.host

theorem remap_of_problem {e : MemoryError} (h : rangeProblem addr bytes = some e) :
    (remap view addr bytes).run v = ⟨.ok (.error e), v, []⟩ := by
  unfold remap onRange
  rw [h]
  rfl

/-- A remap is a call of the host and nothing else. -/
theorem remap_of_noProblem (view : FileView) (h : rangeProblem addr bytes = none) :
    ((remap view addr bytes).run v).state =
        { v with host := ((MemoryHost.remapFile view addr bytes).run v.host).state } ∧
      ((remap view addr bytes).run v).result =
        ((MemoryHost.remapFile view addr bytes).run v.host).result.map
          (·.mapError fun e => .map bytes e.errno) := by
  unfold remap onRange
  rw [h]
  dsimp only
  cases hcall : ((onHost (MemoryHost.remapFile view addr bytes)).run v).result with
  | error stop =>
    have hcall' : ((MemoryHost.remapFile view addr bytes).run v.host).result = .error stop := hcall
    rw [Op.state_bind_of_error hcall, Op.result_bind_of_error hcall, hcall']
    exact ⟨rfl, rfl⟩
  | ok answer =>
    have hcall' : ((MemoryHost.remapFile view addr bytes).run v.host).result = .ok answer := hcall
    rw [Op.state_bind_of_ok hcall, Op.result_bind_of_ok hcall, hcall']
    exact ⟨rfl, rfl⟩

/-- A remap passes the host's error on. -/
theorem error_of_mapped {answer : Except Stop (HostResult UInt64)} {f : HostError → MemoryError}
    {e : MemoryError} (h : answer.map (·.mapError f) = .ok (.error e)) :
    ∃ e', answer = .ok (.error e') := by
  cases answer with
  | error stop => cases h
  | ok result =>
    cases result with
    | ok a => cases h
    | error e' => exact ⟨e', rfl⟩

/-- A remap that fails leaves the tracker as it was. If the tracker agreed with the host about the
range, it goes on to do so exactly if the range was refused, could not be unmapped, or had nothing
tracked: a range that was unmapped before the mapping failed stays on record. -/
theorem remap_error_agrees_iff {π : Type} [MemoryHost π] (M : MapContract π)
    (hdefault : ∀ view addr bytes,
      (MemoryHost.remapFile view addr bytes : Op π (HostResult UInt64)) =
        MemoryHost.unmapThenMap view addr bytes)
    {v : VirtualMemory π} {view : FileView} {addr bytes : UInt64} {e : MemoryError}
    (hagrees : v.Agrees M (Word.span addr bytes))
    (herror : ((remap view addr bytes).run v).result = .ok (.error e)) :
    ((remap view addr bytes).run v).state.tracker = v.tracker ∧
      (((remap view addr bytes).run v).state.Agrees M (Word.span addr bytes) ↔
        rangeProblem addr bytes ≠ none ∨
          ((MemoryHost.unmap addr bytes).run v.host).result ≠ .ok (.ok ()) ∨
          ∀ a ∈ Word.span addr bytes, v.tracker.status a = none) := by
  cases hproblem : rangeProblem addr bytes with
  | some problem =>
    rw [remap_of_problem hproblem]
    exact ⟨rfl, iff_of_true hagrees (.inl nofun)⟩
  | none =>
    obtain ⟨hstate, hresult⟩ := remap_of_noProblem (v := v) view hproblem
    have hfailed : ∃ e, ((MemoryHost.unmapThenMap view addr bytes).run v.host).result =
        .ok (.error e) := by
      rw [hresult, hdefault] at herror
      exact error_of_mapped herror
    obtain ⟨hostError, hfailed⟩ := hfailed
    rw [hstate, hdefault]
    refine ⟨rfl, ?_⟩
    have agrees_iff (host : π) : ({ v with host } : VirtualMemory π).Agrees M (Word.span addr bytes) ↔
        ∀ a ∈ Word.span addr bytes, v.tracker.status a ≠ none → a ∈ M.mapped host := Iff.rfl
    rcases M.unmapThenMap_cases hfailed with ⟨hrefused, hmapped⟩ | ⟨hunmapped, hmapped⟩
    · refine iff_of_true ?_ (.inr (.inl hrefused))
      rw [agrees_iff, hmapped]
      exact hagrees
    · rw [agrees_iff]
      constructor
      · intro hagrees'
        refine .inr (.inr fun a ha => ?_)
        by_contra hstatus
        exact (hmapped (hagrees' a ha hstatus)).2 ha
      · rintro (hproblem' | hrefused | hnone)
        · exact absurd rfl hproblem'
        · exact absurd hunmapped hrefused
        · exact fun a ha hstatus => absurd (hnone a ha) hstatus

end VirtualMemory

/-! ## The address space of a process -/

namespace AddressSpace

variable {s s' : AddressSpace} {addr bytes : UInt64} {e : HostError}

/-- The addresses that lie in an area. -/
def mapped (s : AddressSpace) : Set UInt64 :=
  {a | ∃ r ∈ s.areas, r.covers a.toNat = true}

theorem mem_mapped_remove {lo hi : Nat} (h : lo ≤ hi) {a : UInt64} :
    a ∈ (s.remove lo hi).mapped ↔ a ∈ s.mapped ∧ (a.toNat < lo ∨ hi ≤ a.toNat) :=
  mem_addresses_remove h

theorem mapFile_of_error {p : Placement} {access : Access} {descriptor : Int} {offset : UInt64}
    {shared : Bool} (h : (mapFile p bytes access descriptor offset shared s).1 = .error e) :
    (mapFile p bytes access descriptor offset shared s).2 = s := by
  unfold mapFile at h ⊢
  by_cases hoffset : offset.toNat % pageSize ≠ 0
  · rw [if_pos hoffset]
    rfl
  · rw [if_neg hoffset] at h ⊢
    obtain ⟨areas, own?, file, refusal⟩ := s
    cases file with
    | none => rfl
    | some f =>
      by_cases hdescriptor : f.descriptor = descriptor
      · simp only [bind, StateT.bind, get, getThe, MonadStateOf.get, StateT.get, pure,
          if_pos hdescriptor] at h ⊢
        exact map_of_error h
      · simp only [bind, StateT.bind, get, getThe, MonadStateOf.get, StateT.get, pure,
          if_neg hdescriptor]
        rfl

theorem hostMapFile_of_error {p : Placement} {access : Access} {descriptor : Int}
    {offset : UInt64} {shared : Bool}
    (h : (PosixHost.mapFile p bytes access descriptor offset shared s).1 = .error e) :
    (PosixHost.mapFile p bytes access descriptor offset shared s).2 = s := by
  unfold PosixHost.mapFile at h ⊢
  split at h
  · rename_i hoffset
    rw [if_pos hoffset]
    rfl
  · rename_i hoffset
    rw [if_neg hoffset]
    exact mapFile_of_error h

/-- A call that fails changes no area, and an unmapped range is in none. -/
def mapContract : MapContract AddressSpace where
  mapped := mapped
  unmapped {addr bytes s} h := by
    have hok : (unmap addr bytes s).1 = .ok () := Except.ok.inj h
    show (unmap addr bytes s).2.mapped ⊆ _
    rw [unmap_of_ok hok]
    intro a ha
    obtain ⟨hmapped, hside⟩ := (mem_mapped_remove (Nat.le_add_right ..)).1 ha
    refine ⟨hmapped, fun hspan => ?_⟩
    have hle := le_roundUp bytes.toNat
    have hlo : addr.toNat ≤ a.toNat := hspan.1
    have hhi : a.toNat < addr.toNat + bytes.toNat := hspan.2
    omega
  notUnmapped {addr bytes s e} h := congrArg mapped (unmap_of_error (Except.ok.inj h))
  notMapped {view addr bytes s e} h := congrArg mapped (hostMapFile_of_error (Except.ok.inj h))

end AddressSpace

namespace VirtualMemory

/-- Two reserved pages in the address space of a process. -/
def twoPages : VirtualMemory AddressSpace :=
  ((reserveAt 0x310000000000 8192 false ⟨"src/sites.rs", 9, 14⟩).run
    ⟨{}, {}, ⟨⟨4096⟩, 4096, false⟩, true⟩).state

/-- A view of no file. -/
def noFile : FileView := ⟨-1, 0, false, false⟩

/-- A range that starts within a page is not unmapped, so the tracker goes on agreeing. -/
theorem remap_error_agrees_iff_withinPage :
    twoPages.Agrees AddressSpace.mapContract (Word.span 0x310000000001 4096) ∧
      ((remap noFile 0x310000000001 4096).run twoPages).result =
        .ok (.error (.map 4096 .invalid)) ∧
      ((remap noFile 0x310000000001 4096).run twoPages).state.Agrees AddressSpace.mapContract
        (Word.span 0x310000000001 4096) := by
  have hareas : twoPages.host.areas =
      [⟨0x310000000000, 0x310000002000, .nothing, .zeros true, false⟩] := by decide +kernel
  have hagrees : twoPages.Agrees AddressSpace.mapContract (Word.span 0x310000000001 4096) := by
    intro a ha _
    have hlo : (0x310000000001 : UInt64).toNat ≤ a.toNat := ha.1
    have hhi : a.toNat < (0x310000000001 : UInt64).toNat + (4096 : UInt64).toNat := ha.2
    have hlo : 0x310000000001 ≤ a.toNat := hlo
    have hhi : a.toNat < 0x310000000001 + 4096 := hhi
    show ∃ r ∈ twoPages.host.areas, r.covers a.toNat = true
    rw [hareas]
    refine ⟨_, List.mem_singleton_self _, ?_⟩
    simp only [Area.covers, Bool.and_eq_true, decide_eq_true_eq]
    omega
  have herror : ((remap noFile 0x310000000001 4096).run twoPages).result =
      .ok (.error (.map 4096 .invalid)) := by decide +kernel
  have hunmap : ((MemoryHost.unmap 0x310000000001 4096).run twoPages.host).result ≠
      .ok (.ok ()) := by decide +kernel
  obtain ⟨-, hiff⟩ := remap_error_agrees_iff AddressSpace.mapContract (fun _ _ _ => rfl) hagrees
    herror
  exact ⟨hagrees, herror, hiff.2 (.inr (.inl hunmap))⟩

/-- The first of the two pages was unmapped before the mapping failed, and is still on record. -/
theorem failedRemap_keeps_unmapped_page :
    ((remap noFile 0x310000000000 4096).run twoPages).result =
        .ok (.error (.map 4096 .badDescriptor)) ∧
      (0x310000000000 : UInt64) ∈ Word.span 0x310000000000 4096 ∧
      (0x310000000000 : UInt64) ∈ AddressSpace.mapContract.mapped twoPages.host ∧
      (0x310000000000 : UInt64) ∉ AddressSpace.mapContract.mapped
        ((remap noFile 0x310000000000 4096).run twoPages).state.host ∧
      ((remap noFile 0x310000000000 4096).run twoPages).state.tracker.status 0x310000000000 =
        some (.uncharged, false) := by
  refine ⟨by decide +kernel, ⟨by decide, by decide⟩, ?_, ?_, by decide +kernel⟩
  · show ∃ r ∈ twoPages.host.areas, r.covers (0x310000000000 : UInt64).toNat = true
    decide +kernel
  · show ¬ ∃ r ∈ ((remap noFile 0x310000000000 4096).run twoPages).state.host.areas,
      r.covers (0x310000000000 : UInt64).toNat = true
    decide +kernel

end VirtualMemory

end HostServices
