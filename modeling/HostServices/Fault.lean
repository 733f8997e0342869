import HostServices.Text.Hex

/-!
# Faults

The checks that stop an operation part way. What the operation did before the check stays done.
-/

namespace HostServices

/-- A check that an operation did not pass. -/
inductive Fault
  | addOverflow
  | subOverflow
  | mulOverflow
  | alignmentNotPowerOfTwo
  | pageSizeNotPowerOfTwo (size : UInt64)
  | noMinimumPages
  | invertedRange (start stop : UInt64)
  | pageSizeMisaligned (size : UInt64)
  | pageSizeTooSmall (size : UInt64)
  | spanOverflow
  deriving DecidableEq, Repr

/-- The text reported for a failed check. -/
def Fault.message : Fault → String
  | .addOverflow => "attempt to add with overflow"
  | .subOverflow => "attempt to subtract with overflow"
  | .mulOverflow => "attempt to multiply with overflow"
  | .alignmentNotPowerOfTwo => "assertion failed: alignment.is_power_of_two()"
  | .pageSizeNotPowerOfTwo size => s!"page_size must be a power of 2: {Hex.word size}"
  | .noMinimumPages => "min_pages must be positive"
  | .invertedRange start stop => s!"invalid range: {Hex.word start} -> {Hex.word stop}"
  | .pageSizeMisaligned size => s!"page size misaligned: {size.toNat}"
  | .pageSizeTooSmall size => s!"page size too small: {size.toNat}"
  | .spanOverflow => "overflow in Duration::new"

/-- Why an operation ended without a result. -/
inductive Stop
  | fault (fault : Fault)
  /-- The process ends with `status` after writing `notice` to its error stream. -/
  | exit (status : Nat) (notice : String)
  /-- The process aborts after writing `notice` to its error stream. -/
  | abort (notice : String)
  deriving DecidableEq, Repr

end HostServices
