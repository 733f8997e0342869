import HostServices.Json.Decoder
import HostServices.MemoryConfig

/-!
# Memory configuration as JSON

Every field is written; a field that is not there has its default when read.
-/

namespace HostServices.MemoryConfig

/-- The document of a configuration. -/
def toJson (c : MemoryConfig) : Json :=
  .ofMembers [
    ("tracking", .ofString c.tracking.name),
    ("malloc_limit", .ofString c.mallocLimit.text),
    ("deterministic_fill", .bool c.deterministicFill),
    ("pad_fill", .bool c.padFill),
    ("verify_realloc_copy", .bool c.verifyReallocCopy),
    ("use_large_pages", .bool c.useLargePages),
    ("large_page_size", .ofOption .ofWord c.largePageSize),
    ("catch_ptr", .ofOption .ofWord c.catchPointer)]

/-- Ceilings in their text form. -/
def readLimit (j : Json) : Except Json.Problem MallocLimit := do
  let text ← j.toText
  (MallocLimit.parse text.toList).mapError fun _ => .unfit

/-- The fields of a configuration. -/
def fields : List (Json.Field MemoryConfig) := [
  .of "tracking"
    (Json.toName [("off", .off), ("summary", .summary), ("detail", .detail)])
    fun v c => { c with tracking := v },
  .of "malloc_limit" readLimit fun v c => { c with mallocLimit := v },
  .of "deterministic_fill" Json.toBool fun v c => { c with deterministicFill := v },
  .of "pad_fill" Json.toBool fun v c => { c with padFill := v },
  .of "verify_realloc_copy" Json.toBool fun v c => { c with verifyReallocCopy := v },
  .of "use_large_pages" Json.toBool fun v c => { c with useLargePages := v },
  .of "large_page_size" (Json.toOption Json.toWord) fun v c => { c with largePageSize := v },
  .of "catch_ptr" (Json.toOption Json.toWord) fun v c => { c with catchPointer := v }]

/-- The configuration that a document describes. -/
def ofJson (j : Json) : Except Json.Problem MemoryConfig :=
  j.toRecord fields {}

end HostServices.MemoryConfig
