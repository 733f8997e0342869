import HostServices.Heap.EarlyBlocks
import HostServices.HostAllocator
import HostServices.Ledger.Report
import HostServices.OutOfMemory

/-!
# The heap

Allocation, resizing and release over a host allocator. Until a ledger is installed, blocks come
straight from the host and are remembered, so that they go back to it untouched later. With a
ledger, blocks carry headers and are counted, if its level says so.
-/

namespace HostServices

/-- A heap without a ledger, and the blocks it handed out. -/
structure EarlyHeap (σ : Type) where
  machine : Machine σ
  blocks : EarlyBlocks := .empty

/-- A heap with a ledger, and what was there before. -/
structure LedgerHeap (σ : Type) where
  early : EarlyHeap σ
  ledger : Ledger

/-- A heap. -/
inductive Heap (σ : Type)
  | early (h : EarlyHeap σ)
  | ready (h : LedgerHeap σ)

/-- The hash of some bytes that the copy check compares. -/
def checksum (bs : List UInt8) : UInt64 :=
  bs.foldl (fun hash b => (hash ^^^ b.toUInt64) * 0x100000001b3) 0xcbf29ce484222325

namespace EarlyHeap

variable {σ : Type} [HostAllocator σ]

/-- Ask the host for a block. -/
def hostMalloc (size : UInt64) : Op (EarlyHeap σ) (Option UInt64) :=
  modifyGet fun h =>
    let (p, m) := HostAllocator.malloc size h.machine
    (p, { h with machine := m })

/-- Ask the host to resize a block. -/
def hostRealloc (p size : UInt64) : Op (EarlyHeap σ) (Option UInt64) :=
  modifyGet fun h =>
    let (q, m) := HostAllocator.realloc p size h.machine
    (q, { h with machine := m })

/-- Give a block back to the host. -/
def hostFree (p : UInt64) : Op (EarlyHeap σ) Unit :=
  modify fun h => { h with machine := HostAllocator.free p h.machine }

/-- Remember a block. -/
def remember (p : UInt64) (h : EarlyHeap σ) : EarlyHeap σ :=
  { h with blocks := h.blocks.insert p }

/-- Forget a block. -/
def forget (p : UInt64) (h : EarlyHeap σ) : EarlyHeap σ :=
  { h with blocks := h.blocks.erase p }

/-- Allocate at least one byte. -/
def malloc (size : UInt64) : Op (EarlyHeap σ) (Option UInt64) := do
  match ← hostMalloc (Word.max size 1) with
  | none => return none
  | some p =>
    modify (remember p)
    Op.report .trace .malloc "pre-init malloc" [("addr", .word p), ("size", .word size)]
    return some p

/-- Resize a block; without one, allocate. -/
def realloc (p : Option UInt64) (size : UInt64) : Op (EarlyHeap σ) (Option UInt64) := do
  match p with
  | none => malloc size
  | some old =>
    match ← hostRealloc old (Word.max size 1) with
    | none => return none
    | some new =>
      modify fun h => remember new (forget old h)
      return some new

/-- Release a block. -/
def free (p : Option UInt64) : Op (EarlyHeap σ) Unit := do
  if let some p := p then
    modify (forget p)
    hostFree p

end EarlyHeap

namespace LedgerHeap

variable {σ : Type} [HostAllocator σ]

/-- The memory that blocks are in. -/
def memory (h : LedgerHeap σ) : Memory :=
  h.early.machine.memory

/-- The heap with other memory. -/
def setMemory (h : LedgerHeap σ) (m : Memory) : LedgerHeap σ :=
  { h with early := { h.early with machine := { h.early.machine with memory := m } } }

/-- The ledger with the memory of the blocks. -/
def tracked (h : LedgerHeap σ) : TrackedMemory :=
  ⟨h.ledger, h.memory⟩

/-- Take over a ledger and memory. -/
def setTracked (h : LedgerHeap σ) (t : TrackedMemory) : LedgerHeap σ :=
  { h.setMemory t.memory with ledger := t.ledger }

/-- Run an operation of the heap without its ledger. -/
def onEarly {α : Type} (op : Op (EarlyHeap σ) α) : Op (LedgerHeap σ) α :=
  Op.zoom (·.early) (fun h e => { h with early := e }) op

/-- Run an operation on the ledger and memory. -/
def onTracked {α : Type} (op : Op TrackedMemory α) : Op (LedgerHeap σ) α :=
  Op.zoom tracked setTracked op

/-- Run an operation of the ledger. -/
def onLedger {α : Type} (op : Op Ledger α) : Op (LedgerHeap σ) α :=
  onTracked (TrackedMemory.onLedger op)

/-- Fill a part of memory. -/
def fill (start len : UInt64) (b : UInt8) : Op (LedgerHeap σ) Unit :=
  modify fun h => h.setMemory (h.memory.fill start len b)

/-- Warn about the address that the configuration asks to catch. -/
def catchPointer (operation : String) (p : UInt64) : Op (LedgerHeap σ) Unit := do
  if (← get).ledger.config.catchPointer = some p then
    Op.report .warn .malloc s!"ptr caught: {Hex.word p}" [("operation", .string operation)]

/-- Fill a new block as the configuration asks. -/
def fillFresh (inner size : UInt64) : Op (LedgerHeap σ) Unit := do
  let config := (← get).ledger.config
  if config.deterministicFill then
    fill inner size 0
  else if config.padFill then
    fill inner size MemoryConfig.padByte

/-- Allocate at least one byte for a category. There is no block when a ceiling would be crossed,
when the host block would be too large for a word, or when the host has none. -/
def malloc (size : UInt64) (c : Category) (origin : Origin) :
    Op (LedgerHeap σ) (Option UInt64) := do
  let size := Word.max size 1
  if ← onLedger (Ledger.exceedsLimit size c) then
    return none
  match Word.add? size (← get).ledger.overhead with
  | none => return none
  | some outerSize =>
    match ← onEarly (EarlyHeap.hostMalloc outerSize) with
    | none => return none
    | some outer =>
      let inner ← onTracked (TrackedMemory.recordMalloc outer size c origin)
      fillFresh inner size
      catchPointer "malloc" inner
      return some inner

/-- Resize a block of the host, with no record of it. -/
def reallocUntracked (old size : UInt64) : Op (LedgerHeap σ) (Option UInt64) := do
  match ← onEarly (EarlyHeap.hostRealloc old size) with
  | none => return none
  | some new =>
    catchPointer "realloc" new
    return some new

/-- Put a removed block back. -/
def revive (r : Removed) : Op (LedgerHeap σ) Unit :=
  onTracked (modify (TrackedMemory.revive r))

/-- The hash of the bytes that a resize has to keep, if copies are checked. -/
def keptChecksum (start len : UInt64) : Op (LedgerHeap σ) (Option UInt64) := do
  let h ← get
  return if h.ledger.config.verifyReallocCopy then some (checksum (h.memory.read start len.toNat))
    else none

/-- Report a resize that did not keep the bytes with the hash `before`. -/
def verifyCopy (before : Option UInt64) (old new kept : UInt64) : Op (LedgerHeap σ) Unit := do
  if let some expected := before then
    if checksum ((← get).memory.read new kept.toNat) ≠ expected then
      onLedger (Ledger.reportCorruption ⟨.realloc, old, .reallocCopy kept⟩)

/-- Fill the grown part of a block as the configuration asks. -/
def fillGrown (inner oldSize size : UInt64) : Op (LedgerHeap σ) Unit := do
  let config := (← get).ledger.config
  if oldSize < size && config.padFill && !config.deterministicFill then
    fill (inner + oldSize) (size - oldSize) MemoryConfig.padByte

/-- Resize the removed block `r` to a host block of `outerSize` bytes, or put it back. -/
def resizeRemoved (r : Removed) (size outerSize : UInt64) (c : Category) (origin : Origin) :
    Op (LedgerHeap σ) (Option UInt64) := do
  let oldSize := r.size
  let tooMuch ←
    if oldSize < size then onLedger (Ledger.exceedsLimit (size - oldSize) c) else pure false
  if tooMuch then
    revive r
    return none
  let kept := Word.min oldSize size
  let before ← keptChecksum r.inner kept
  match ← onEarly (EarlyHeap.hostRealloc ((← get).ledger.outerOf r.inner) outerSize) with
  | none =>
    revive r
    return none
  | some newOuter =>
    modify fun h => { h with ledger := h.ledger.deaccount r }
    let new ← onTracked (TrackedMemory.recordMalloc newOuter size c origin)
    verifyCopy before r.inner new kept
    fillGrown new oldSize size
    catchPointer "realloc" new
    return some new

/-- Resize a block with a record. The record is taken out of the ledger before the host may
overwrite the header, and put back when the resize fails. -/
def reallocTracked (old size : UInt64) (c : Category) (origin : Origin) :
    Op (LedgerHeap σ) (Option UInt64) := do
  match Word.add? size (← get).ledger.overhead with
  | none => return none
  | some outerSize =>
    match ← onTracked (TrackedMemory.markDeadForRealloc old c) with
    | .error _ => return none
    | .ok r => resizeRemoved r size outerSize c origin

/-- Resize a block; without one, allocate. Blocks from before the ledger stay without a record. -/
def realloc (p : Option UInt64) (size : UInt64) (c : Category) (origin : Origin) :
    Op (LedgerHeap σ) (Option UInt64) := do
  match p with
  | none => malloc size c origin
  | some old =>
    if (← get).early.blocks.contains old then
      onEarly (EarlyHeap.realloc p size)
    else if !(← get).ledger.enabled then
      reallocUntracked old (Word.max size 1)
    else
      reallocTracked old (Word.max size 1) c origin

/-- Release a block. A block that the ledger rejects is not given back to the host. -/
def free (p : Option UInt64) : Op (LedgerHeap σ) Unit := do
  match p with
  | none => pure ()
  | some p =>
    if (← get).early.blocks.contains p then
      onEarly (EarlyHeap.free (some p))
    else
      catchPointer "free" p
      match ← onTracked (TrackedMemory.recordFree p) with
      | .error _ => pure ()
      | .ok outer => onEarly (EarlyHeap.hostFree outer)

end LedgerHeap

namespace Heap

variable {σ : Type}

/-- A heap without a ledger. -/
def create (m : Machine σ) : Heap σ :=
  .early { machine := m }

/-- What does not depend on a ledger. -/
def base : Heap σ → EarlyHeap σ
  | early h => h
  | ready h => h.early

/-- The heap over another machine. -/
def setMachine (m : Machine σ) : Heap σ → Heap σ
  | early h => early { h with machine := m }
  | ready h => ready { h with early := { h.early with machine := m } }

/-- The ledger, if one is installed. -/
def ledger? : Heap σ → Option Ledger
  | early _ => none
  | ready h => some h.ledger

/-- The memory that blocks are in. -/
def memory (h : Heap σ) : Memory :=
  h.base.machine.memory

/-- The heap with other memory. -/
def setMemory (m : Memory) (h : Heap σ) : Heap σ :=
  h.setMachine { h.base.machine with memory := m }

/-- Run one of two operations, as the heap is without or with a ledger. -/
def choose {α : Type} (without : Op (EarlyHeap σ) α) (withLedger : Op (LedgerHeap σ) α) :
    Op (Heap σ) α
  | early h =>
    let out := without h
    ⟨out.result, early out.state, out.events⟩
  | ready h =>
    let out := withLedger h
    ⟨out.result, ready out.state, out.events⟩

/-- Install a ledger, once. -/
def install (l : Ledger) : Op (Heap σ) (Except MemoryError Unit) := do
  match ← get with
  | ready _ => return .error (.invalidConfig "native heap already initialized")
  | early h =>
    set (ready ⟨h, l⟩ : Heap σ)
    Op.report .debug .malloc "native heap initialized" [("preinit_blocks", .number h.blocks.size)]
    return .ok ()

variable [HostAllocator σ]

/-- Allocate at least one byte for a category. -/
def malloc (size : UInt64) (c : Category) (origin : Origin) : Op (Heap σ) (Option UInt64) :=
  choose (EarlyHeap.malloc size) (LedgerHeap.malloc size c origin)

/-- Resize a block; without one, allocate. -/
def realloc (p : Option UInt64) (size : UInt64) (c : Category) (origin : Origin) :
    Op (Heap σ) (Option UInt64) :=
  choose (EarlyHeap.realloc p size) (LedgerHeap.realloc p size c origin)

/-- Release a block. -/
def free (p : Option UInt64) : Op (Heap σ) Unit :=
  choose (EarlyHeap.free p) (LedgerHeap.free p)

/-- A copy of a text with a zero byte behind it. -/
def duplicate (text : List UInt8) (c : Category) (origin : Origin) :
    Op (Heap σ) (Option UInt64) := do
  let bytes := text ++ [0]
  match ← malloc (UInt64.ofNat bytes.length) c origin with
  | none => return none
  | some p =>
    modify fun h => h.setMemory (h.memory.write p bytes.toArray)
    return some p

/-- `duplicate`, where no memory ends the process. -/
def duplicateOrExit (text : List UInt8) (c : Category) (origin : Origin) :
    Op (Heap σ) UInt64 := do
  match ← duplicate text c origin with
  | some p => return p
  | none => OutOfMemory.exit (UInt64.ofNat (text.length + 1)) "strdup_check_oom"

/-- The form for inspection. -/
def inspect (h : Heap σ) : String :=
  let shown := h.ledger?.elim "None" fun l => s!"Some({l.inspect})"
  s!"NativeHeap \x7b ledger: {shown}, preinit_blocks: {h.base.blocks.size}, .. \x7d"

end Heap

end HostServices
