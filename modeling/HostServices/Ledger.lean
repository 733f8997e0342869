import HostServices.AddressMap
import HostServices.BlockHeader
import HostServices.Corruption
import HostServices.MallocSummary
import HostServices.MemoryConfig

/-!
# The malloc ledger

The record of every live block, and the counters that sum them up. The record of a block is looked
up before its header is read, so an address that is not live is noticed without touching memory.
-/

namespace HostServices

/-- Where a request came from. The stack is kept at the level of call sites only. -/
structure Origin where
  site : CallSite
  stack : CallStack := .empty
  deriving DecidableEq

/-- The record of a live block. -/
structure LiveBlock where
  size : UInt64
  category : Category
  origin : Origin
  /-- The marker of the requester's counter, zero for none. -/
  marker : UInt32
  deriving DecidableEq

/-- The header that a block with this record has. -/
def LiveBlock.header (b : LiveBlock) : BlockHeader where
  size := b.size
  marker := b.marker
  category := UInt8.ofNat b.category.index
  canary := BlockHeader.live.canary

/-- The live blocks, by the address of their user bytes, and the counters over them. -/
structure Ledger where
  config : MemoryConfig
  live : AddressMap LiveBlock := .empty
  summary : MallocSummary := {}
  sites : SiteTable := {}
  policy : CorruptionPolicy := .abort
  /-- The corruptions found so far, the oldest first. -/
  reports : List Corruption := []

/-- A ledger and the memory that its blocks are in. -/
structure TrackedMemory where
  ledger : Ledger
  memory : Memory

/-- What a resize keeps of the block that it took from the ledger. -/
structure Removed where
  inner : UInt64
  /-- The record, if blocks are tracked. -/
  block : Option LiveBlock

/-- The size of a removed block, zero for an untracked one. -/
def Removed.size (r : Removed) : UInt64 :=
  r.block.elim 0 (·.size)

namespace Ledger

/-- The tracking level. -/
def level (l : Ledger) : TrackingLevel :=
  l.config.tracking

/-- Blocks have headers and are counted. -/
def enabled (l : Ledger) : Bool :=
  l.level.enabled

/-- The number of bytes around the user's. -/
def overhead (l : Ledger) : UInt64 :=
  if l.enabled then BlockHeader.headerSize + BlockHeader.footerSize else 0

/-- The ceiling that `size` more bytes for `c` would cross: the one for all bytes is looked at
first. Without tracking there is nothing to measure against. -/
def limitCheck (l : Ledger) (size : UInt64) (c : Category) : Except MemoryError Unit :=
  let within (name : String) (used : UInt64) : Option UInt64 → Except MemoryError Unit
    | none => .ok ()
    | some limit =>
      if limit < Word.addSat used size then .error (.limitExceeded name size used limit)
      else .ok ()
  if l.enabled then do
    within "total" l.summary.total.bytes l.config.mallocLimit.total
    within c.shortName (l.summary.category c).bytes (l.config.mallocLimit.category c)
  else
    .ok ()

/-- Whether `size` more bytes for `c` would cross a ceiling, with a report if so. -/
def exceedsLimit (size : UInt64) (c : Category) : Op Ledger Bool := do
  match (← get).limitCheck size c with
  | .ok () => return false
  | .error e =>
    Op.report .info .malloc s!"MallocLimit: {e.message}"
      [("size", .word size), ("flags", .shown c.displayName)]
    return true

/-- Compare the bytes around a block with its record. The footer is looked at last, when the
recorded size is known to be the one in the header. -/
def inspectBlock (m : Memory) (inner : UInt64) (b : LiveBlock) : Except Corruption.Kind Unit := do
  let found := BlockHeader.read m inner
  let recorded := b.header
  if found.canary ≠ recorded.canary then
    throw (.headerCanary recorded.canary found.canary)
  if found.size ≠ recorded.size then
    throw (.headerMismatch .size recorded.size found.size)
  if found.category ≠ recorded.category then
    throw (.headerMismatch .category recorded.category.toUInt64 found.category.toUInt64)
  if found.marker ≠ recorded.marker then
    throw (.headerMismatch .marker recorded.marker.toUInt64 found.marker.toUInt64)
  let footer := BlockHeader.readFooter m inner b.size
  if footer ≠ BlockHeader.live.footer then
    throw (.footerCanary BlockHeader.live.footer footer)

/-- The checks before a resize for category `c`. -/
def inspectForResize (m : Memory) (inner : UInt64) (b : LiveBlock) (c : Category) :
    Except Corruption.Kind Unit := do
  inspectBlock m inner b
  if b.category ≠ c then
    throw (.categoryMismatch c b.category)

/-- The block behind the user bytes at `inner`. -/
def outerOf (l : Ledger) (inner : UInt64) : UInt64 :=
  if l.enabled then BlockHeader.outerOf inner else inner

/-- Take a block out of the counters. -/
def discharge (l : Ledger) (b : LiveBlock) : Ledger :=
  { l with
    summary := l.summary.deallocate b.category b.size
    sites := l.sites.deallocate b.marker b.size }

/-- Take a removed block out of the counters. -/
def deaccount (l : Ledger) (r : Removed) : Ledger :=
  r.block.elim l l.discharge

/-- Report a corruption as the policy says. -/
def reportCorruption (c : Corruption) : Op Ledger Unit := do
  Op.report .error .malloc s!"native memory corruption: {c.message}"
    [("operation", .string c.operation.name), ("block", .word c.block)]
  modify fun l => { l with reports := l.reports ++ [c] }
  match (← get).policy with
  | .keep => pure ()
  | .abort => Op.stop (.abort c.notice)

/-- A ledger with nothing in it. -/
def create (config : MemoryConfig) (policy : CorruptionPolicy) : Op Unit Ledger := do
  Op.report .debug .malloc "malloc ledger initialized"
    [("level", .shown config.tracking.name), ("limit", .shown config.mallocLimit.text)]
  return { config, policy }

end Ledger

namespace TrackedMemory

/-- Run an operation of the ledger. -/
def onLedger {α : Type} (op : Op Ledger α) : Op TrackedMemory α :=
  Op.zoom (·.ledger) (fun t l => { t with ledger := l }) op

/-- Put a record into the ledger. -/
def addLive (t : TrackedMemory) (inner : UInt64) (b : LiveBlock) : TrackedMemory :=
  { t with ledger := { t.ledger with live := t.ledger.live.insert inner b } }

/-- Take the record at an address out of the ledger. -/
def removeLive (t : TrackedMemory) (inner : UInt64) : TrackedMemory :=
  { t with ledger := { t.ledger with live := t.ledger.live.erase inner } }

/-- Write the canary and the footer of a block. -/
def setMarks (t : TrackedMemory) (inner : UInt64) (b : LiveBlock) (marks : BlockHeader.Marks) :
    TrackedMemory :=
  { t with memory := BlockHeader.setMarks t.memory inner b.size marks }

/-- Report a corruption and answer it. -/
def corrupt {α : Type} (operation : BlockOperation) (block : UInt64) (kind : Corruption.Kind) :
    Op TrackedMemory (Except Corruption α) := do
  onLedger (Ledger.reportCorruption ⟨operation, block, kind⟩)
  return .error ⟨operation, block, kind⟩

/-- Record the fresh host block at `outer` and answer where the user bytes start. The requester's
counter is charged before the counters of the category, and those before the header is written. -/
def recordMalloc (outer size : UInt64) (c : Category) (origin : Origin) :
    Op TrackedMemory UInt64 := do
  let level := (← get).ledger.level
  if level = .off then
    return outer
  let origin : Origin := if level = .detail then origin else { origin with stack := .empty }
  let marker ←
    if level = .detail then
      onLedger (Op.zoom (·.sites) (fun l s => { l with sites := s })
        (SiteTable.allocate ⟨origin.site, origin.stack, c⟩ size))
    else pure 0
  onLedger (Op.zoom (·.summary) (fun l s => { l with summary := s }) (MallocSummary.allocate c size))
  let block : LiveBlock := ⟨size, c, origin, marker⟩
  let inner := BlockHeader.innerOf outer
  modify fun t => { t with memory := block.header.install t.memory outer }
  modify (·.addLive inner block)
  Op.report .trace .malloc "malloc"
    [("addr", .word inner), ("size", .word size), ("flags", .shown c.displayName)]
  return inner

/-- Take a block out of the ledger and answer the host block to free. The counters change before
the block is checked, so a damaged block is gone from them as well. -/
def recordFree (inner : UInt64) : Op TrackedMemory (Except Corruption UInt64) := do
  if !(← get).ledger.enabled then
    return .ok inner
  match (← get).ledger.live.get? inner with
  | none => corrupt .free inner .notLive
  | some block =>
    modify (·.removeLive inner)
    modify fun t => { t with ledger := t.ledger.discharge block }
    match Ledger.inspectBlock (← get).memory inner block with
    | .error kind => corrupt .free inner kind
    | .ok () =>
      modify (·.setMarks inner block BlockHeader.dead)
      Op.report .trace .malloc "free" [("addr", .word inner), ("size", .word block.size)]
      return .ok (BlockHeader.outerOf inner)

/-- Take a block out of the live table before the host resizes it. It stays in the counters unless
it is damaged or of another category. -/
def markDeadForRealloc (inner : UInt64) (c : Category) :
    Op TrackedMemory (Except Corruption Removed) := do
  if !(← get).ledger.enabled then
    return .ok ⟨inner, none⟩
  match (← get).ledger.live.get? inner with
  | none => corrupt .realloc inner .notLive
  | some block =>
    modify (·.removeLive inner)
    match Ledger.inspectForResize (← get).memory inner block c with
    | .error kind =>
      modify fun t => { t with ledger := t.ledger.discharge block }
      corrupt .realloc inner kind
    | .ok () =>
      modify (·.setMarks inner block BlockHeader.dead)
      return .ok ⟨inner, some block⟩

/-- Put a removed block back, after the host left it in place. -/
def revive (r : Removed) (t : TrackedMemory) : TrackedMemory :=
  match r.block with
  | none => t
  | some block => (t.setMarks r.inner block BlockHeader.live).addLive r.inner block

end TrackedMemory

end HostServices
