import HostServices.ByteSize
import HostServices.Ledger
import HostServices.Text.Align

/-!
# Ledger reports

The summary of counters, the live blocks grouped by requester, and the description of an address.
The live table has no order of its own that matters: where a report goes through it, the order is
a parameter, and the ledger's own reports use address order.
-/

namespace HostServices

/-- The live blocks of one requester. -/
structure LeakRecord where
  key : SiteKey
  blocks : UInt64
  bytes : UInt64
  deriving DecidableEq

namespace LeakRecord

/-- Who asked for a live block. -/
def keyOf (b : LiveBlock) : SiteKey :=
  ⟨b.origin.site, b.origin.stack, b.category⟩

/-- Count one more block of a requester. -/
def add (b : LiveBlock) : List LeakRecord → List LeakRecord
  | [] => [⟨keyOf b, 1, b.size⟩]
  | r :: rest =>
    if r.key = keyOf b then { r with blocks := r.blocks + 1, bytes := r.bytes + b.size } :: rest
    else r :: add b rest

/-- One record for each requester, in order of their first block. -/
def collect (blocks : List LiveBlock) : List LeakRecord :=
  blocks.foldl (fun records b => add b records) []

/-- More bytes come first; among equals, the smaller site text. -/
def precedes (a b : LeakRecord) : Bool :=
  b.bytes < a.bytes || a.bytes == b.bytes && !(b.key.site.display < a.key.site.display)

/-- Records in report order. Records that tie keep their order. -/
def arrange (records : List LeakRecord) : List LeakRecord :=
  records.mergeSort precedes

end LeakRecord

namespace Ledger

/-- The live blocks in address order. -/
def liveBlocks (l : Ledger) : List (UInt64 × LiveBlock) :=
  l.live.toList

/-- The live blocks by requester, largest first. -/
def leakReport (l : Ledger) : List LeakRecord :=
  LeakRecord.arrange (LeakRecord.collect (l.liveBlocks.map (·.2)))

/-- `bytes` and `count` as the summary shows them. -/
def amount (bytes count : UInt64) : String :=
  s!"{ByteSize.scaled bytes.toNat} #{count.toNat}"

/-- The current and the highest values of a counter. -/
def counterText (c : Counter) : String :=
  s!"{amount c.bytes c.count}, peak={amount c.peakBytes c.peakCount}"

/-- The line of a category that was ever charged. -/
def categoryLine (l : Ledger) (c : Category) : String :=
  let counter := l.summary.category c
  if counter.peakCount = 0 then ""
  else s!"-{Text.alignRight 26 c.displayName} (malloc={counterText counter})\n"

/-- The lines of a requester. -/
def siteLines (key : SiteKey) (counter : Counter) : String :=
  s!"[{key.site.display}]\n{key.stack.render 4}{Text.blanks 28}(malloc=" ++
    s!"{ByteSize.scaled counter.bytes.toNat} type={key.category.displayName} " ++
    s!"#{counter.count.toNat})\n\n"

/-- The requesters with live blocks, the ones with most bytes first. -/
def busySites (l : Ledger) : List (SiteKey × Counter) :=
  (l.sites.entries.filter (·.2.count != 0)).mergeSort fun a b => !(a.2.bytes < b.2.bytes)

/-- The lines of every requester, at the level of call sites. -/
def siteReport (l : Ledger) : String :=
  if l.level = .detail then
    "\nDetails:\n\n" ++ String.join (l.busySites.map fun (key, counter) => siteLines key counter)
  else ""

/-- The summary of all counters. -/
def summaryReport (l : Ledger) : String :=
  s!"Native Memory Tracking ({l.level.name}):\n" ++
    if l.enabled then
      s!"\nTotal: malloc={counterText l.summary.total}\n\n" ++
        String.join (Category.all.map l.categoryLine) ++ l.siteReport
    else "  not enabled\n"

/-- What an address is, if it lies in the block at `inner` or its header. -/
def describeBlock (addr inner : UInt64) (b : LiveBlock) : Option String :=
  if inner.toNat ≤ addr.toNat ∧ addr.toNat < inner.toNat + b.size.toNat then
    some (s!"{Hex.word addr} is {(addr - inner).toNat} bytes inside a live malloc'd block of " ++
      s!"{b.size.toNat} bytes ({b.category.displayName}) allocated at {b.origin.site.display}")
  else if addr.toNat < inner.toNat ∧ inner.toNat ≤ addr.toNat + 16 then
    some (s!"{Hex.word addr} is in the malloc header of block {Hex.word inner} " ++
      s!"({b.size.toNat} bytes, {b.category.displayName})")
  else none

/-- What an address is, by the first of some blocks that knows it. -/
def describeIn (blocks : List (UInt64 × LiveBlock)) (addr : UInt64) : Option String :=
  blocks.findSome? fun (inner, b) => describeBlock addr inner b

/-- What an address is, if it lies in a live block or its header. -/
def describe (l : Ledger) (addr : UInt64) : Option String :=
  describeIn l.liveBlocks addr

/-- The form for inspection. -/
def inspect (l : Ledger) : String :=
  let level := match l.level with | .off => "Off" | .summary => "Summary" | .detail => "Detail"
  s!"MallocLedger \x7b level: {level}, live: {l.live.size}, .. \x7d"

end Ledger

end HostServices
