/-!
# Patterns

Regular expressions over characters. From a place in a text on, a pattern has a list of ends, the
preferred ones first: an alternative before those behind it, and one more repetition before none,
unless the repetition is lazy. A text matches a pattern if the preferred end of the pattern is the
end of the text. So `a|ab` does not match `ab`, and `ab|a` does.
-/

namespace HostServices

/-- A place in a text: the character in front of it and the text behind it. -/
structure Pattern.Place where
  before : Option Char
  rest : List Char
  deriving DecidableEq, Repr

/-- What an anchor asks of a place. -/
inductive Pattern.Anchor
  | textStart
  | textEnd
  /-- A line starts; `crlf` says whether a carriage return ends lines too. -/
  | lineStart (crlf : Bool)
  | lineEnd (crlf : Bool)
  /-- A word starts or ends. -/
  | wordEdge
  | noWordEdge
  | wordStart
  | wordEnd
  deriving DecidableEq, Repr

/-- A regular expression. -/
inductive Pattern
  | empty
  | char (accepts : Char → Bool)
  | anchor (a : Pattern.Anchor)
  | seq (p q : Pattern)
  | either (p q : Pattern)
  | repeated (p : Pattern) (reluctant : Bool)

namespace Pattern

/-- An ASCII letter or digit, or an underscore. -/
def isWordChar (c : Char) : Bool :=
  c.isAlphanum || c == '_'

namespace Place

/-- A word ends in front of the place. -/
def behindWord (p : Place) : Bool :=
  p.before.any isWordChar

/-- A word goes on behind the place. -/
def facesWord (p : Place) : Bool :=
  p.rest.head?.any isWordChar

/-- A line starts. A carriage return in front of a newline ends no line of its own. -/
def startsLine (p : Place) (crlf : Bool) : Bool :=
  match p.before with
  | none => true
  | some '\n' => true
  | some '\r' => crlf && p.rest.head? != some '\n'
  | some _ => false

/-- A line ends. -/
def endsLine (p : Place) (crlf : Bool) : Bool :=
  match p.rest.head? with
  | none => true
  | some '\n' => !(crlf && p.before == some '\r')
  | some '\r' => crlf
  | some _ => false

end Place

/-- The place is as an anchor asks. -/
def Anchor.holds (p : Place) : Anchor → Bool
  | textStart => p.before.isNone
  | textEnd => p.rest.isEmpty
  | lineStart crlf => p.startsLine crlf
  | lineEnd crlf => p.endsLine crlf
  | wordEdge => p.behindWord != p.facesWord
  | noWordEdge => p.behindWord == p.facesWord
  | wordStart => !p.behindWord && p.facesWord
  | wordEnd => p.behindWord && !p.facesWord

/-- One more place behind those that were found, unless it is among them. -/
def addPlace (found : List Place) (p : Place) : List Place :=
  if p ∈ found then found else found ++ [p]

/-- The ends of any number of steps from a place on, behind those that were found before. A step
that consumes nothing is the last one. From a place that was found, no new ends can be found, so
no place is visited twice. `fuel` is at least the length of the text behind the place. -/
def repeatedEnds (step : Place → List Place) (reluctant : Bool) :
    (fuel : Nat) → List Place → Place → List Place
  | 0, found, p => addPlace found p
  | fuel + 1, found, p =>
    if p ∈ found then found
    else
      let start := if reluctant then addPlace found p else found
      let more := (step p).foldl (fun found q =>
        if q.rest.length < p.rest.length then repeatedEnds step reluctant fuel found q
        else addPlace found p) start
      addPlace more p

/-- The ends of a pattern from a place on, the preferred ones first. -/
def ends : Pattern → Place → List Place
  | empty, p => [p]
  | char accepts, p =>
    match p.rest with
    | [] => []
    | c :: cs => if accepts c then [⟨some c, cs⟩] else []
  | anchor a, p => if a.holds p then [p] else []
  | seq a b, p => ((ends a p).flatMap (ends b)).eraseDups
  | either a b, p => (ends a p ++ ends b p).eraseDups
  | repeated a reluctant, p => repeatedEnds (ends a) reluctant p.rest.length [] p

/-- A text matches. -/
def matchesText (p : Pattern) (text : List Char) : Bool :=
  (p.ends ⟨none, text⟩).head?.any (·.rest.isEmpty)

/-- One or none. -/
def option (p : Pattern) (reluctant : Bool) : Pattern :=
  if reluctant then either empty p else either p empty

/-- At least one. -/
def many (p : Pattern) (reluctant : Bool) : Pattern :=
  seq p (repeated p reluctant)

end Pattern

end HostServices
