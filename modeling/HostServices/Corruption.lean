import HostServices.Category
import HostServices.Text.Hex

/-!
# Corruption

What an integrity check of a block can find, and what is done about it.
-/

namespace HostServices

/-- The operation that checked a block. -/
inductive BlockOperation
  | free
  | realloc
  deriving DecidableEq, Repr

/-- The name of an operation. -/
def BlockOperation.name : BlockOperation → String
  | free => "free"
  | realloc => "realloc"

/-- The fields of a header that are compared with the record of the block. -/
inductive HeaderField
  | size
  | category
  | marker
  deriving DecidableEq, Repr

/-- The name of a field. -/
def HeaderField.name : HeaderField → String
  | size => "size"
  | category => "category"
  | marker => "site marker"

namespace Corruption

/-- The check that failed. -/
inductive Kind
  /-- The address is not in the live table. -/
  | notLive
  | headerCanary (expected found : UInt16)
  | footerCanary (expected found : UInt16)
  | headerMismatch (field : HeaderField) (expected found : UInt64)
  /-- A resize for another category than the block's. -/
  | categoryMismatch (requested recorded : Category)
  /-- A resize did not keep the first `preserved` bytes. -/
  | reallocCopy (preserved : UInt64)
  deriving DecidableEq, Repr

/-- Four digits of a mark. -/
def mark (n : UInt16) : String :=
  Hex.ofNat n.toNat 4

/-- The text of a failed check. -/
def Kind.message : Kind → String
  | notLive => "not a live malloc'd block (double free or foreign pointer)"
  | headerCanary expected found =>
    s!"header canary damaged (expected {mark expected}, found {mark found})"
  | footerCanary expected found =>
    s!"footer canary damaged (expected {mark expected}, found {mark found}), block overrun"
  | headerMismatch field expected found =>
    s!"header {field.name} is {found.toNat}, recorded {expected.toNat}"
  | categoryMismatch requested recorded =>
    s!"weird category mismatch (new: \"{requested.displayName}\" != old: \"{recorded.displayName}\")"
  | reallocCopy preserved => s!"realloc did not preserve the first {preserved.toNat} bytes"

/-- The name of a kind in encoded values. -/
def Kind.tag : Kind → String
  | notLive => "NotLive"
  | headerCanary .. => "HeaderCanary"
  | footerCanary .. => "FooterCanary"
  | headerMismatch .. => "HeaderMismatch"
  | categoryMismatch .. => "FlagsMismatch"
  | reallocCopy _ => "ReallocCopy"

end Corruption

/-- A failed check, with the operation and the address it was given. -/
structure Corruption where
  operation : BlockOperation
  block : UInt64
  kind : Corruption.Kind
  deriving DecidableEq, Repr

/-- The text of a report. -/
def Corruption.message (c : Corruption) : String :=
  s!"{c.operation.name} of block {Hex.word c.block}: {c.kind.message}"

/-- What the process writes before it aborts over a corruption. -/
def Corruption.notice (c : Corruption) : String :=
  s!"#\n# Native memory corruption detected\n#  {c.message}\n#\n"

/-- What happens with reports: they are kept and work goes on, or the process aborts. When work goes
on, the block is never touched again. -/
inductive CorruptionPolicy
  | keep
  | abort
  deriving DecidableEq, Repr

end HostServices
