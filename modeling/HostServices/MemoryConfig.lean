import HostServices.MallocLimit
import HostServices.MemoryError
import HostServices.TrackingLevel

/-!
# Memory configuration

The settings of the heap, its ledger and the virtual memory manager, the presets, and the reading
of environment variables.
-/

namespace HostServices

/-- The memory settings. -/
structure MemoryConfig where
  tracking : TrackingLevel := .off
  mallocLimit : MallocLimit := MallocLimit.none
  /-- Fill new blocks with zeros, so that their contents do not depend on the host. -/
  deterministicFill : Bool := false
  /-- Fill new blocks and the grown part of resized ones with the pad byte. -/
  padFill : Bool := true
  /-- Compare checksums of the kept bytes around a resize. -/
  verifyReallocCopy : Bool := true
  useLargePages : Bool := false
  /-- The largest page size in use. -/
  largePageSize : Option UInt64 := none
  /-- Warn when this address is handed out or freed. -/
  catchPointer : Option UInt64 := none
  deriving DecidableEq

namespace MemoryConfig

/-- The byte that fills fresh memory. -/
def padByte : UInt8 := 0xf1

/-- Every call site, fills and copy checks. -/
def development : MemoryConfig where
  tracking := .detail

/-- Counters only. -/
def production : MemoryConfig where
  tracking := .summary
  padFill := false
  verifyReallocCopy := false

/-- Reproducible block contents. -/
def deterministic : MemoryConfig where
  deterministicFill := true

/-- The presets, by name. -/
def presets : List (String × MemoryConfig) :=
  [("development", development), ("production", production), ("deterministic", deterministic),
   ("default", {})]

/-- Apply the setting for large pages: a truth value, or a page size that also turns them on. -/
def withLargePages (config : MemoryConfig) (text : List Char) :
    Except SizeText.Problem MemoryConfig :=
  let word := Category.normalize text
  if (["1", "true", "yes", "on"].map String.toList).contains word then
    .ok { config with useLargePages := true }
  else if (["0", "false", "no", "off", ""].map String.toList).contains word then
    .ok { config with useLargePages := false }
  else
    (SizeText.parse word).map fun size =>
      { config with useLargePages := true, largePageSize := some size }

/-- The configuration that the variables ask for. -/
def ofEnvironment (setting? : String → Option String) : Except MemoryError MemoryConfig := do
  let refuse {ε α : Type} (message : ε → String) (r : Except ε α) : Except MemoryError α :=
    r.mapError fun e => .invalidConfig (message e)
  let mut config : MemoryConfig := {}
  if let some text := setting? "STRATUM_NMT" then
    let level ← refuse TrackingLevel.unknownMessage (TrackingLevel.parse text.toList)
    config := { config with tracking := level }
  if let some text := setting? "STRATUM_MALLOC_LIMIT" then
    let limit ← refuse MallocLimit.Problem.message (MallocLimit.parse text.toList)
    config := { config with mallocLimit := limit }
  if let some text := setting? "STRATUM_LARGE_PAGES" then
    config ← refuse SizeText.Problem.message (config.withLargePages text.toList)
  return config

end MemoryConfig

end HostServices
