import HostServices.AddressMap

/-!
# Blocks from before the ledger

The set of blocks that went out without a header, and beside it their number. The number is read
without a look at the set, and once it is zero the set is not looked at any more. Both are changed
together, so the number is the size of the set in every table.
-/

namespace HostServices

/-- Blocks that were handed out without a ledger, and how many there are. -/
structure EarlyBlocks where
  members : AddressMap Unit := .empty
  size : Nat := 0
  size_eq : size = members.size := by rfl

namespace EarlyBlocks

/-- No blocks. -/
def empty : EarlyBlocks := {}

/-- A block is among them. -/
def contains (t : EarlyBlocks) (p : UInt64) : Bool :=
  t.size != 0 && t.members.contains p

/-- Add a block. One that is there already changes nothing. -/
def insert (t : EarlyBlocks) (p : UInt64) : EarlyBlocks :=
  if t.members.contains p then t
  else { members := t.members.insert p (), size := (t.members.insert p ()).size }

/-- Remove a block, if there are any. -/
def erase (t : EarlyBlocks) (p : UInt64) : EarlyBlocks :=
  if t.size = 0 then t
  else { members := t.members.erase p, size := (t.members.erase p).size }

end EarlyBlocks

end HostServices
