import HostServices.Proofs.VirtualMemory.InStep
import HostServices.Recorder

/-!
# Bad ranges

A range is bad without an address, without bytes, or if its end is not a word. An operation that
checks its range asks the host nothing about a bad one (`run_onRange_of_bad`). Two operations take
an address that the caller may leave out, and look at the number of bytes only; these pass a bad
address on to the host (`host_onHost`). `badRange_refused_unless_trusted` says this of every
operation that is given a range.
-/

namespace HostServices

namespace VirtualMemory

variable {π α : Type} {v : VirtualMemory π} {addr bytes : UInt64}

/-! ## Operations that check their range -/

/-- A range without an address, without bytes, or with an end that is not a word. -/
def BadRange (addr bytes : UInt64) : Prop :=
  addr = 0 ∨ bytes = 0 ∨ 2 ^ 64 ≤ addr.toNat + bytes.toNat

/-- What a bad range is reported as. -/
def rangeError (addr bytes : UInt64) : MemoryError :=
  if addr = 0 ∨ bytes = 0 then .invalidRange addr bytes else .sizeOverflow "virtual memory range"

theorem rangeProblem_of_bad (h : BadRange addr bytes) :
    rangeProblem addr bytes = some (rangeError addr bytes) := by
  unfold rangeProblem rangeError
  by_cases hempty : addr = 0 ∨ bytes = 0
  · rw [if_pos hempty, if_pos hempty]
  · have hbig : 2 ^ 64 ≤ addr.toNat + bytes.toNat := by
      rcases h with haddr | hbytes | hbig
      · exact absurd (.inl haddr) hempty
      · exact absurd (.inr hbytes) hempty
      · exact hbig
    rw [if_neg hempty, if_neg hempty, Word.add?_of_le hbig]
    rfl

/-- A checked operation on a bad range answers with an error and does nothing else. -/
theorem run_onRange_of_bad (h : BadRange addr bytes)
    (op : Op (VirtualMemory π) (Except MemoryError α)) :
    (onRange addr bytes op).run v = ⟨.ok (.error (rangeError addr bytes)), v, []⟩ := by
  rw [onRange, rangeProblem_of_bad h]
  rfl

theorem run_onSize_zero (op : Op (VirtualMemory π) (Except MemoryError α)) :
    (onSize (some addr) 0 op).run v = ⟨.ok (.error (rangeError addr 0)), v, []⟩ := by
  rw [onSize, if_pos rfl, rangeError, if_pos (.inr rfl)]
  rfl

/-! ## Operations that pass their address on -/

theorem keepsHost_record (op : Op Tracker α) : Op.Keeps host (record (π := π) op) :=
  Op.Keeps.bind (fun _ => rfl) fun _ => .ite (.bind (fun _ => rfl) fun _ => .pure _) (.pure _)

/-- The host is asked once: what is done with its answer does not ask it again. -/
theorem host_onHost {β : Type} {ask : Op π (HostResult β)}
    {answer : HostResult β → Op (VirtualMemory π) (Except MemoryError α)}
    (hok : ∀ a, Op.Keeps host (answer (.ok a))) (herror : ∀ e, Op.Keeps host (answer (.error e)))
    (v : VirtualMemory π) :
    ((do answer (← onHost ask)).run v).state.host = (ask.run v.host).state := by
  cases hask : ((onHost ask).run v).result with
  | error why =>
    rw [Op.state_bind_of_error hask]
    rfl
  | ok r =>
    rw [Op.state_bind_of_ok hask]
    cases r with
    | ok a => exact hok a _
    | error e => exact herror e _

theorem onSize_of_ne (hbytes : bytes ≠ 0) (addr : Option UInt64)
    (op : Op (VirtualMemory π) (Except MemoryError α)) : onSize addr bytes op = op :=
  if_neg hbytes

end VirtualMemory

/-! ## Every operation -/

namespace ManagerCall

variable {π α : Type}

/-- The range that an operation is given. -/
def range? : ManagerCall α → Option (UInt64 × UInt64)
  | reserve .. | mapToFile .. | setCategory .. | pretouch .. => none
  | reserveSpecial bytes _ _ addr .. | map _ addr bytes .. => addr.map fun a => (a, bytes)
  | reserveAt addr bytes .. | commit addr bytes .. | commitAligned addr bytes ..
  | commitOrExit addr bytes .. | uncommit addr bytes .. | release addr bytes
  | releaseSpecial addr bytes | mapToFileAt addr bytes .. | remap _ addr bytes | unmap addr bytes
  | freeMemory addr bytes _ | realign addr bytes _ | guardPages addr bytes => some (addr, bytes)

/-- The operation looks at the number of bytes only, and not at the address. -/
def trustsAddress : ManagerCall α → Bool
  | reserveSpecial .. | map .. => true
  | _ => false

/-- What an operation does about an error: one without errors of its own ends the process. -/
def refuse : ManagerCall α → MemoryError → Op (VirtualMemory π) (Except MemoryError α)
  | commitOrExit _ bytes _ context, _ => OutOfMemory.exit bytes context
  | _, e => pure (.error e)

/-- That leaves the manager, its host and its tracker as they were. -/
theorem state_refuse (call : ManagerCall α) (e : MemoryError) (v : VirtualMemory π) :
    ((call.refuse e).run v).state = v := by
  cases call <;> rfl

end ManagerCall

namespace VirtualMemory

variable {π α : Type} [MemoryHost π] {addr bytes : UInt64}

/-- A commit that must not fail ends the process over a bad range. -/
theorem run_commitOrExit_of_bad (h : BadRange addr bytes) (executable : Bool) (context : String)
    (v : VirtualMemory π) :
    (commitOrExit addr bytes executable context).run v = (OutOfMemory.exit bytes context).run v := by
  have hcommit : (commit addr bytes executable).run v =
      ⟨.ok (.error (rangeError addr bytes)), v, []⟩ := run_onRange_of_bad h _
  rw [commitOrExit, Op.run_bind_of_run hcommit]

theorem perform_of_bad {call : ManagerCall α} (hrange : call.range? = some (addr, bytes))
    (hbad : BadRange addr bytes) (hchecked : call.trustsAddress = false ∨ bytes = 0)
    (v : VirtualMemory π) : call.perform.run v = (call.refuse (rangeError addr bytes)).run v := by
  cases call with
  | reserve | mapToFile | setCategory | pretouch => cases hrange
  | reserveSpecial bytes alignment page given executable site =>
    obtain ⟨a, rfl, ha⟩ := Option.map_eq_some_iff.1 hrange
    cases ha
    obtain rfl := hchecked.resolve_left nofun
    show (reserveSpecial 0 alignment page (some addr) executable site).run v = _
    rw [reserveSpecial]
    exact run_onSize_zero _
  | map view given bytes c site =>
    obtain ⟨a, rfl, ha⟩ := Option.map_eq_some_iff.1 hrange
    cases ha
    obtain rfl := hchecked.resolve_left nofun
    show (map view (some addr) 0 c site).run v = _
    rw [map]
    exact run_onSize_zero _
  | commitOrExit a b executable context =>
    cases hrange
    have hexit := run_commitOrExit_of_bad hbad executable context v
    exact Op.run_bind_of_error (congrArg Outcome.result hexit) |>.trans (by rw [hexit]; rfl)
  | _ =>
    cases hrange
    exact run_onRange_of_bad hbad _

/-- A trusted address is passed on. -/
theorem host_perform_of_trusted {call : ManagerCall α} (hrange : call.range? = some (addr, bytes))
    (htrusts : call.trustsAddress = true) (hbytes : bytes ≠ 0) (v : VirtualMemory π) :
    ∃ ask ∈ call.ask, (call.perform.run v).state.host = (ask.run v.host).state := by
  cases call with
  | reserveSpecial b alignment page given executable site =>
    obtain ⟨a, rfl, ha⟩ := Option.map_eq_some_iff.1 hrange
    cases ha
    refine ⟨_, rfl, ?_⟩
    show ((reserveSpecial bytes alignment page (some addr) executable site).run v).state.host = _
    rw [reserveSpecial, onSize_of_ne hbytes]
    exact host_onHost
      (fun _ => (keepsHost_record _).bind fun _ => .bind (fun _ => rfl) fun _ => .pure _)
      (fun _ => .bind (fun _ => rfl) fun _ => .pure _) v
  | map view given b c site =>
    obtain ⟨a, rfl, ha⟩ := Option.map_eq_some_iff.1 hrange
    cases ha
    refine ⟨_, rfl, ?_⟩
    show ((map view (some addr) bytes c site).run v).state.host = _
    rw [map, onSize_of_ne hbytes]
    exact host_onHost (fun _ => (keepsHost_record _).bind fun _ => .pure _)
      (fun _ => .bind (fun _ => rfl) fun _ => .pure _) v
  | _ => cases htrusts

/-- A bad range never reaches the host through an operation that checks its range, nor a range
without bytes through any: the operation does what it does about an error and nothing else. The two
operations that trust an address ask the host about every other bad range. -/
theorem badRange_refused_unless_trusted (call : ManagerCall α) (v : VirtualMemory π)
    (hrange : call.range? = some (addr, bytes)) (hbad : BadRange addr bytes) :
    (call.trustsAddress = false ∨ bytes = 0 →
      call.perform.run v = (call.refuse (rangeError addr bytes)).run v ∧
        (call.perform.run v).state = v) ∧
    (call.trustsAddress = true ∧ bytes ≠ 0 →
      ∃ ask ∈ call.ask, (call.perform.run v).state.host = (ask.run v.host).state) := by
  refine ⟨fun hchecked => ?_, fun h => host_perform_of_trusted hrange h.1 h.2 v⟩
  have hrun := perform_of_bad hrange hbad hchecked v
  exact ⟨hrun, hrun ▸ call.state_refuse _ v⟩

/-- A recording host under a manager that tracks. -/
def recording : VirtualMemory Recorder :=
  ⟨{}, {}, ⟨⟨4096⟩, 4096, false⟩, true⟩

/-- Map a file at an address of the recording host. -/
def mapAt (addr bytes : UInt64) : Outcome (VirtualMemory Recorder) (Except MemoryError UInt64) :=
  (map ⟨7, 0, false, false⟩ (some addr) bytes .code ⟨"src/sites.rs", 9, 14⟩).run recording

/-- A commit over the top of the address space. -/
theorem badRange_refused_unless_trusted_overTop :
    BadRange 0xfffffffffffff000 8192 ∧
      ((commit 0xfffffffffffff000 8192 false).run recording).result =
        .ok (.error (.sizeOverflow "virtual memory range")) ∧
      ((commit 0xfffffffffffff000 8192 false).run recording).state = recording := by
  have hbad : BadRange 0xfffffffffffff000 8192 := .inr (.inr (by decide))
  obtain ⟨hrefused, -⟩ := badRange_refused_unless_trusted
    (.commit 0xfffffffffffff000 8192 false) recording rfl hbad
  obtain ⟨hrun, hstate⟩ := hrefused (.inl rfl)
  exact ⟨hbad, congrArg Outcome.result hrun, hstate⟩

/-- A mapping at no address is made and tracked, and one over the top is made by the host before the
sum of its address and size stops the operation. -/
theorem unchecked_mapping_reaches_host :
    (BadRange 0 4096 ∧ (mapAt 0 4096).result = .ok (.ok 0) ∧
      (mapAt 0 4096).state.host.calls = ["map_file fd=7 0 0x0 4096 false false"] ∧
      (mapAt 0 4096).state.tracker.status 0 = some (.code, true)) ∧
    BadRange 0xfffffffffffff000 8192 ∧
      (mapAt 0xfffffffffffff000 8192).result = .error (.fault .addOverflow) ∧
      (mapAt 0xfffffffffffff000 8192).state.host.calls =
        ["map_file fd=7 0 0xfffffffffffff000 8192 false false"] := by
  have hnull : BadRange 0 4096 := .inl rfl
  have htop : BadRange 0xfffffffffffff000 8192 := .inr (.inr (by decide))
  exact ⟨⟨hnull, by decide +kernel⟩, htop, by decide +kernel⟩

end VirtualMemory

end HostServices
