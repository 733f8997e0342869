import HostServices.Fault
import HostServices.Text.Align

/-!
# Times as text

Timestamps, durations in days and hours, and the elapsed time of a report. Dates follow the
Gregorian calendar in both directions, with a year zero.
-/

namespace HostServices.Time

/-- A date. -/
structure Date where
  year : Int
  month : Nat
  day : Nat
  deriving DecidableEq, Repr

/-- The number of years of a 400-year era that end before a day of it. -/
def yearOfEra (dayOfEra : Nat) : Nat :=
  (dayOfEra - dayOfEra / 1460 + dayOfEra / 36524 - dayOfEra / 146096) / 365

/-- The date `days` after the first of January 1970. Eras of 400 years and years are counted from
the first of March, so that the odd day of a leap year is the last one. -/
def dateOfDays (days : Int) : Date :=
  let fromMarch := days + 719468
  let era := fromMarch / 146097
  let dayOfEra := (fromMarch % 146097).toNat
  let year := yearOfEra dayOfEra
  let dayOfYear := dayOfEra - (365 * year + year / 4 - year / 100)
  let shifted := (5 * dayOfYear + 2) / 153
  let day := dayOfYear - (153 * shifted + 2) / 5 + 1
  let month := if shifted < 10 then shifted + 3 else shifted - 9
  ⟨year + 400 * era + (if month ≤ 2 then 1 else 0), month, day⟩

/-- A year: four digits, with a sign outside of what four digits can say. -/
def yearText (year : Int) : String :=
  if 0 ≤ year ∧ year ≤ 9999 then Text.zeroPadded 4 year.toNat
  else (if year < 0 then "-" else "+") ++ Text.zeroPadded 4 year.natAbs

/-- The first instant that has a date, in milliseconds from 1970. -/
def firstInstant : Int := -8334601228800000

/-- The last instant that has a date. -/
def lastInstant : Int := 8210266876799999

/-- The universal time of an instant, unless it has no date. -/
def iso8601 (millis : Int) : Option String :=
  if firstInstant ≤ millis ∧ millis ≤ lastInstant then
    let date := dateOfDays (millis / 86400000)
    let ofDay := (millis % 86400000).toNat
    let two (n : Nat) := Text.zeroPadded 2 n
    some (s!"{yearText date.year}-{two date.month}-{two date.day}T{two (ofDay / 3600000)}:" ++
      s!"{two (ofDay / 60000 % 60)}:{two (ofDay / 1000 % 60)}.{Text.zeroPadded 3 (ofDay % 1000)}+0000")
  else none

/-- Seconds as days, hours and minutes, each rounded towards zero. -/
def dayHourMinute (label : String) (seconds : Int) : String :=
  let days := seconds.tdiv 86400
  let hours := seconds.tdiv 3600 - days * 24
  let minutes := seconds.tdiv 60 - days * 1440 - hours * 60
  s!"{label} {days} days {hours}:{Text.zeroPadded 2 minutes.toNat} hours"

/-- A span of time. -/
structure Span where
  seconds : UInt64
  nanos : Nat

/-- The span of seconds and nanoseconds, which may be more than a second's. -/
def Span.ofParts (seconds : UInt64) (nanos : Nat) : Except Fault Span :=
  if seconds.toNat + nanos / 1000000000 < UInt64.size then
    .ok ⟨seconds + UInt64.ofNat (nanos / 1000000000), nanos % 1000000000⟩
  else .error .spanOverflow

/-- The elapsed time of a report. -/
def elapsedSummary (span : Span) : String :=
  let s := span.seconds.toNat
  s!" elapsed time: {s}.{Text.zeroPadded 6 (span.nanos / 1000)} seconds " ++
    s!"({s / 86400}d {s % 86400 / 3600}h {s % 3600 / 60}m {s % 60}s)"

end HostServices.Time
