import HostServices.Log.Directive

/-!
# Event filters

A filter is a list of directives between commas. Of the directives for an event the one that says
most exactly what it is for decides, and of two for the same the later one. An event also passes
inside a span if a directive for the span lets it pass.
-/

namespace HostServices.Log

/-- The directives of a filter. -/
structure Filter where
  directives : List Directive

namespace Filter

/-- Read a filter. Without directives, only errors pass. -/
def parse? (text : String) : Option Filter :=
  let parts := (Text.split ',' text.toList).filter (· ≠ [])
  match parts.mapM Directive.parse? with
  | some [] => some ⟨[{ threshold := .least .error }]⟩
  | ds => ds.map Filter.mk

/-- The directive that decides, of some that are for the same event or span. -/
def decisive (ds : List Directive) : Option Directive :=
  ds.foldl (fun best d => if best.all fun b => (b.compareWeight d).isLE then some d else best) none

/-- The last of the directives that are for the same. -/
def latest : List Directive → List Directive
  | [] => []
  | d :: ds => if ds.any d.sameConcern then latest ds else d :: latest ds

/-- The directives about events by themselves. -/
def statics (f : Filter) : List Directive :=
  f.directives.filter (·.isStatic)

/-- The directives about what happens inside spans. -/
def dynamics (f : Filter) : List Directive :=
  latest (f.directives.filter (·.isDynamic))

/-- Some directive lets events of a severity pass. -/
def reaches (f : Filter) (severity : Severity) : Bool :=
  f.directives.any fun d => d.threshold.passes severity

/-- An event passes outside all spans. -/
def passes (f : Filter) (e : Event) : Bool :=
  (decisive (f.statics.filter (·.concerns e))).any (·.threshold.passes e.severity)

/-- A span is recorded: the filter lets anything of its severity pass, and some directive is for the
span. What is asked of values is not known before the span is there. -/
def opens (f : Filter) (s : Span) : Bool :=
  (f.reaches s.severity || f.dynamics.any (·.asksValue)) &&
    (f.dynamics.any (·.concernsSpan s) ||
      (decisive (f.statics.filter (·.concernsTarget s.target.toList))).any
        (·.threshold.passes s.severity))

/-- An event passes because of the span that it happens in. -/
def passesInside (f : Filter) (s : Span) (e : Event) : Bool :=
  f.dynamics.any fun d =>
    d.concernsSpan s && d.field.all (·.accepts s.value.toList) && d.threshold.passes e.severity

/-- An event passes, perhaps inside a recorded span. -/
def passesWithin (f : Filter) (span : Option Span) (e : Event) : Bool :=
  f.passes e || span.any (f.passesInside · e)

end Filter

end HostServices.Log
