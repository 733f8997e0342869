import HostServices.ByteSize
import HostServices.Text.Align
import HostServices.Tracker

/-!
# Tracker reports

The reserved and committed bytes of each category and of all of them, and the description of an
address.
-/

namespace HostServices

/-- Reserved and committed bytes. -/
structure Usage where
  reserved : UInt64 := 0
  committed : UInt64 := 0
  deriving DecidableEq, Repr

/-- The usage with one more region. -/
def Usage.add (u : Usage) (r : Region) : Except Fault Usage := do
  let reserved ← Checked.add u.reserved r.size
  let committed ← Checked.add u.committed (← r.committedSize)
  return ⟨reserved, committed⟩

/-- The usage of some regions. -/
def Usage.sum (regions : List Region) : Except Fault Usage :=
  regions.foldlM Usage.add {}

/-- The usage of each category with one more region, which goes to its own. -/
def Usage.charge (usages : Category → Usage) (r : Region) : Except Fault (Category → Usage) := do
  let usage ← (usages r.category).add r
  return fun c => if c = r.category then usage else usages c

/-- The values as reports show them. -/
def Usage.text (u : Usage) : String :=
  s!"reserved={ByteSize.scaled u.reserved.toNat}, committed={ByteSize.scaled u.committed.toNat}"

namespace Tracker

/-- The usage of all regions. -/
def total (t : Tracker) : Except Fault Usage :=
  Usage.sum t.regions.values

/-- The usage of the regions of one category. -/
def usage (t : Tracker) (c : Category) : Except Fault Usage :=
  Usage.sum (t.regions.values.filter (·.category = c))

/-- The categories with reserved bytes and their usage, in report order. -/
def summary (t : Tracker) : Except Fault (List (Category × Usage)) := do
  let usages ← t.regions.values.foldlM Usage.charge fun _ => {}
  return (Category.all.map fun c => (c, usages c)).filter fun (_, u) => 0 < u.reserved

/-- The usage of all regions, and of each category. -/
def summaryReport (t : Tracker) : Except Fault String := do
  let total ← t.total
  let summary ← t.summary
  let lines := summary.map fun (c, u) => s!"-{Text.alignRight 26 c.displayName} ({u.text})\n"
  return s!"Virtual memory: {total.text}\n" ++ String.join lines

/-- What an address is, if a region holds it. -/
def describe (t : Tracker) (addr : UInt64) : Option String :=
  (t.regionAt addr).map fun r =>
    let state := if r.isCommitted addr then "committed" else "reserved"
    s!"{Hex.word addr} is at offset {Hex.word (addr - r.base)} in a {state} region " ++
      s!"{rangeText r.base r.finish} ({r.category.displayName}) reserved at {r.site.display}"

end Tracker

end HostServices
