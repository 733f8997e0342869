import HostServices.Alignment
import HostServices.Op
import HostServices.PageSizes

/-!
# Page size selection

Which page size backs a region. The largest size is tried first, so the first one that fits is the
answer.
-/

namespace HostServices

/-- The sizes to choose from, the base page size, and whether there is a choice. -/
structure PageSizeSelector where
  sizes : PageSizes
  base : UInt64
  useLargePages : Bool
  deriving DecidableEq

namespace PageSizeSelector

variable {σ : Type}

/-- A report about page sizes. -/
def note (message : String) : Op σ Unit :=
  Op.report .info .pageSize message

/-- A selector over the powers of two among the host's sizes, none above `cap`, and its base page
size, which must be one. -/
def create (base : UInt64) (hostSizes : List UInt64) (cap : Option UInt64) (useLargePages : Bool) :
    Op σ PageSizeSelector := do
  let usable := hostSizes.filter fun s => Word.isPowerOfTwo s && cap.all (s ≤ ·)
  let sizes ← Op.check (PageSizes.ofList (usable ++ [base]))
  let state := if useLargePages then "enabled" else "disabled"
  note s!"Usable page sizes: {sizes.display}, large pages {state}"
  return ⟨sizes, base, useLargePages⟩

/-- The first size from `size` down that is not above `limit` and, if asked, divides
`regionSize`. -/
def descend (p : PageSizes) (regionSize limit : UInt64) (aligned : Bool) (size : UInt64) :
    Option UInt64 :=
  if _h : size = 0 then none
  else if size ≤ limit && (!aligned || Word.isAligned regionSize size) then some size
  else descend p regionSize limit aligned (p.nextSmaller size)
termination_by size.toNat
decreasing_by exact PageSizes.nextSmaller_lt ‹_›

/-- The largest size that fits `minPages` times into a region, and divides the region's size if
asked; else the base page size. -/
def pageSizeFor (s : PageSizeSelector) (regionSize minPages : UInt64) (aligned : Bool) :
    Except Fault UInt64 :=
  if minPages = 0 then .error .noMinimumPages
  else if s.useLargePages then
    .ok ((descend s.sizes regionSize (regionSize / minPages) aligned s.sizes.largest).getD s.base)
  else .ok s.base

/-- A size in its exact unit. -/
def exact (size : UInt64) : String :=
  ByteSize.exact size.toNat

/-- Report the page size for a region between two sizes. -/
def tracePageSizes (label : String) (least most page base size : UInt64) : Op σ Unit :=
  note <| s!"{label}:  min={exact least} max={exact most} base={Hex.word base} " ++
    s!"page_size={exact page} size={exact size}"

/-- Report the page size for a requested size. -/
def traceRequestedSize (label : String) (requested page alignment base size : UInt64) : Op σ Unit :=
  note <| s!"{label}: req_size={exact requested} base={Hex.word base} page_size={exact page} " ++
    s!"alignment={exact alignment} size={exact size}"

/-- The form for inspection. -/
def inspect (s : PageSizeSelector) : String :=
  s!"PageSizeSelector \x7b sizes: PageSizes({s.sizes.mask.toNat}), " ++
    s!"vm_page_size: {s.base.toNat}, use_large_pages: {s.useLargePages} \x7d"

end PageSizeSelector

end HostServices
