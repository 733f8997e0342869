import HostServices.Pattern.Basic
import HostServices.Text.Alphanumeric
import HostServices.Text.Blank

/-!
# The text of patterns

The usual notation: literal characters, `.`, sets in brackets with ranges, nested sets and the
operators `&&`, `--` and `~~`, groups with and without names and options, alternatives behind `|`,
the repetitions `?`, `*` and `+` with a `?` behind them for the reluctant ones, and anchors.

What depends on a table of all letters is not understood: sets such as `\d`, edges of words, and
matching in any case. All three are understood for ASCII, behind `(?-u)`. Counted repetitions are
not understood either.
-/

namespace HostServices.Pattern

/-- What a pattern can switch on and off up to the end of a group. -/
structure Options where
  /-- Capital and small letters are the same. -/
  anyCase : Bool := false
  /-- `^` and `$` stand for the edges of lines. -/
  eachLine : Bool := false
  /-- `.` stands for a newline, too. -/
  dotNewline : Bool := false
  /-- Repetitions are reluctant unless a `?` follows. -/
  swapped : Bool := false
  /-- Blanks and comments do not count. -/
  spaced : Bool := false
  /-- Carriage returns end lines. -/
  crlf : Bool := false
  unicode : Bool := true

/-- Turn one option on or off. -/
def Options.set? (o : Options) (on : Bool) : Char → Option Options
  | 'i' => some { o with anyCase := on }
  | 'm' => some { o with eachLine := on }
  | 's' => some { o with dotNewline := on }
  | 'U' => some { o with swapped := on }
  | 'x' => some { o with spaced := on }
  | 'R' => some { o with crlf := on }
  | 'u' => some { o with unicode := on }
  | _ => none

/-- Read the options of a group up to the `:` or `)` behind them. Each stands once, those behind a
`-` are turned off, and at least one stands behind the `-`. -/
def options? (o : Options) (seen : List Char) : List Char → Option (Options × List Char)
  | [] => none
  | c :: cs =>
    if c = ':' ∨ c = ')' then
      if seen.head? = some '-' then none else some (o, c :: cs)
    else if c ∈ seen then none
    else if c = '-' then options? o (c :: seen) cs
    else (o.set? ('-' ∉ seen) c).bind fun o => options? o (c :: seen) cs

/-- The text behind blanks and comments. -/
def skipBlanks (comment : Bool) : List Char → List Char
  | [] => []
  | c :: cs =>
    if comment then skipBlanks (c != '\n') cs
    else if c = '#' then skipBlanks true cs
    else if Text.isBlank c then skipBlanks false cs
    else c :: cs

/-- The text behind what does not count. -/
def Options.skip (o : Options) (cs : List Char) : List Char :=
  if o.spaced then skipBlanks false cs else cs

/-! ## Characters -/

/-- A set of characters. -/
abbrev CharSet := Char → Bool

/-- The characters that are not in a set. -/
def CharSet.complement (s : CharSet) : CharSet :=
  fun c => !s c

/-- A set as far as the options allow it: without tables there are no capital letters but those of
ASCII, and without `unicode` there is nothing but ASCII. -/
def Options.accept? (o : Options) (negated : Bool) (s : CharSet) : Option CharSet :=
  if o.unicode then
    if o.anyCase then none else some (if negated then CharSet.complement s else s)
  else
    let s : CharSet := if o.anyCase then fun c => s c.toLower || s c.toUpper else s
    let s := if negated then CharSet.complement s else s
    if (List.range' 128 128).any fun n => s (Char.ofNat n) then none else some s

/-- A character that stands for itself. -/
def Options.literal? (o : Options) (c : Char) : Option Pattern :=
  if !o.anyCase then some (.char (· == c))
  else if o.unicode then none
  else some (.char fun d => d.toLower == c.toLower)

/-- The set of `.`. -/
def Options.dot? (o : Options) : Option Pattern :=
  if !o.unicode then none
  else some (.char fun c => o.dotNewline || (c != '\n' && !(o.crlf && c == '\r')))

/-- An ASCII control character. -/
def isControl (c : Char) : Bool :=
  c.toNat < 0x20 || c.toNat == 0x7f

/-- A visible ASCII character. -/
def isVisible (c : Char) : Bool :=
  0x20 < c.toNat && c.toNat < 0x7f

/-- The blanks of ASCII. -/
def isAsciiSpace (c : Char) : Bool :=
  c == ' ' || (9 ≤ c.toNat && c.toNat ≤ 13)

/-- The sets with a name. -/
def namedSet? (name : List Char) : Option CharSet :=
  match String.ofList name with
  | "alnum" => some Char.isAlphanum
  | "alpha" => some Char.isAlpha
  | "ascii" => some (·.toNat < 0x80)
  | "blank" => some fun c => c == ' ' || c == '\t'
  | "cntrl" => some isControl
  | "digit" => some Char.isDigit
  | "graph" => some isVisible
  | "lower" => some Char.isLower
  | "print" => some fun c => c == ' ' || isVisible c
  | "punct" => some fun c => isVisible c && !c.isAlphanum
  | "space" => some isAsciiSpace
  | "upper" => some Char.isUpper
  | "word" => some isWordChar
  | "xdigit" => some fun c =>
    c.isDigit || ('a' ≤ c && c ≤ 'f') || ('A' ≤ c && c ≤ 'F')
  | _ => none

/-- What stands behind a backslash. -/
inductive Escape
  | char (c : Char)
  | oneOf (s : CharSet)
  | anchor (a : Anchor)

/-- The value of a hexadecimal digit. -/
def hexDigit? (c : Char) : Option Nat :=
  if c.isDigit then some (c.toNat - '0'.toNat)
  else if 'a' ≤ c ∧ c ≤ 'f' then some (c.toNat - 'a'.toNat + 10)
  else if 'A' ≤ c ∧ c ≤ 'F' then some (c.toNat - 'A'.toNat + 10)
  else none

/-- The character whose code is given by exactly `width` hexadecimal digits. -/
def hexEscape? (o : Options) (width : Nat) (cs : List Char) : Option (Escape × List Char) := do
  if cs.length < width then none
  let ds ← (cs.take width).mapM hexDigit?
  let n := ds.foldl (fun n d => 16 * n + d) 0
  if n.isValidChar ∧ (o.unicode ∨ n < 0x80) then
    some (.char (Char.ofNat n), cs.drop width)
  else none

/-- An escape that is understood for ASCII only. -/
def Options.asciiOnly (o : Options) (e : Escape) (cs : List Char) : Option (Escape × List Char) :=
  if o.unicode then none else some (e, cs)

/-- Read an escape from behind its backslash on. -/
def escape? (o : Options) : List Char → Option (Escape × List Char)
  | [] => none
  | c :: cs =>
    match c with
    | 'a' => some (.char '\x07', cs)
    | 'f' => some (.char '\x0c', cs)
    | 't' => some (.char '\t', cs)
    | 'n' => some (.char '\n', cs)
    | 'r' => some (.char '\r', cs)
    | 'v' => some (.char '\x0b', cs)
    | 'x' => hexEscape? o 2 cs
    | 'u' => hexEscape? o 4 cs
    | 'U' => hexEscape? o 8 cs
    | 'A' => some (.anchor .textStart, cs)
    | 'z' => some (.anchor .textEnd, cs)
    | 'b' => o.asciiOnly (.anchor .wordEdge) cs
    | 'B' => o.asciiOnly (.anchor .noWordEdge) cs
    | '<' => o.asciiOnly (.anchor .wordStart) cs
    | '>' => o.asciiOnly (.anchor .wordEnd) cs
    | 'd' => o.asciiOnly (.oneOf Char.isDigit) cs
    | 's' => o.asciiOnly (.oneOf isAsciiSpace) cs
    | 'w' => o.asciiOnly (.oneOf isWordChar) cs
    | 'D' => o.asciiOnly (.oneOf (CharSet.complement Char.isDigit)) cs
    | 'S' => o.asciiOnly (.oneOf (CharSet.complement isAsciiSpace)) cs
    | 'W' => o.asciiOnly (.oneOf (CharSet.complement isWordChar)) cs
    | c => if c.toNat < 0x80 ∧ !c.isAlphanum then some (.char c, cs) else none

/-! ## Sets in brackets -/

/-- How two sets are joined. -/
inductive SetOperator
  | intersection
  | difference
  | symmetricDifference

/-- Join two sets. -/
def SetOperator.join (op : SetOperator) (s t : CharSet) : CharSet := fun c =>
  match op with
  | intersection => s c && t c
  | difference => s c && !t c
  | symmetricDifference => s c != t c

/-- The operator at the head of a text. -/
def setOperator? : List Char → Option (SetOperator × List Char)
  | '&' :: '&' :: cs => some (.intersection, cs)
  | '-' :: '-' :: cs => some (.difference, cs)
  | '~' :: '~' :: cs => some (.symmetricDifference, cs)
  | _ => none

/-- A set by name, from behind `[:` on. -/
def namedInBrackets? (cs : List Char) : Option (CharSet × List Char) := do
  let (negated, cs) := match cs with
    | '^' :: cs => (true, cs)
    | _ => (false, cs)
  let name := cs.takeWhile (· != ':')
  match cs.drop name.length with
  | ':' :: ']' :: rest =>
    let s ← namedSet? name
    some (if negated then CharSet.complement s else s, rest)
  | _ => none

/-- One character or escape inside brackets. -/
def setItem? (o : Options) : List Char → Option (Escape × List Char)
  | [] => none
  | '\\' :: cs => escape? o cs
  | c :: cs => if o.unicode ∨ c.toNat < 0x80 then some (.char c, cs) else none

/-- The set of an item, which is no anchor. -/
def Escape.set? : Escape → Option CharSet
  | .char c => some (· == c)
  | .oneOf s => some s
  | .anchor _ => none

/-- One item or one range inside brackets. A `-` in front of `]` or another `-` makes no range. -/
def setRange? (o : Options) (cs : List Char) : Option (CharSet × List Char) := do
  let (first, cs) ← setItem? o cs
  let item : Option (CharSet × List Char) := first.set?.map fun s => (s, cs)
  match o.skip cs with
  | [] => none
  | '-' :: cs =>
    match o.skip cs with
    | ']' :: _ => item
    | '-' :: _ => item
    | cs =>
      let (last, cs) ← setItem? o cs
      match first, last with
      | .char lo, .char hi => if lo ≤ hi then some (fun c => lo ≤ c && c ≤ hi, cs) else none
      | _, _ => none
  | _ => item

/-- The sets read so far inside brackets: those joined by operators, with the operator behind
them, and the one that is being read. -/
structure SetState where
  joined : Option (CharSet × SetOperator) := none
  current : CharSet := fun _ => false

/-- All that was read. -/
def SetState.whole (s : SetState) : CharSet :=
  match s.joined with
  | none => s.current
  | some (t, op) => op.join t s.current

/-- One more item. -/
def SetState.add (s : SetState) (t : CharSet) : SetState :=
  { s with current := fun c => s.current c || t c }

/-- An operator behind all that was read. -/
def SetState.operate (s : SetState) (op : SetOperator) : SetState :=
  { joined := some (s.whole, op) }

mutual

/-- A set from behind its opening bracket on. -/
def brackets? (o : Options) : (fuel : Nat) → List Char → Option (CharSet × List Char)
  | 0, _ => none
  | fuel + 1, cs => do
    let (negated, cs) := match o.skip cs with
      | '^' :: cs => (true, o.skip cs)
      | cs => (false, cs)
    let dashes := cs.takeWhile (· == '-')
    let cs := o.skip (cs.drop dashes.length)
    let start : SetState := if dashes = [] then {} else ({} : SetState).add (· == '-')
    let (s, rest) ← match cs with
      | ']' :: cs =>
        if dashes = [] then setItems? o fuel (start.add (· == ']')) cs
        else setItems? o fuel start (']' :: cs)
      | cs => setItems? o fuel start cs
    let s ← o.accept? negated s
    some (s, rest)

/-- The items of a set up to its closing bracket. -/
def setItems? (o : Options) : (fuel : Nat) → SetState → List Char → Option (CharSet × List Char)
  | 0, _, _ => none
  | fuel + 1, state, cs =>
    match o.skip cs with
    | [] => none
    | ']' :: cs => some (state.whole, cs)
    | '[' :: cs =>
      let named := match cs with
        | ':' :: cs => namedInBrackets? cs
        | _ => none
      match named with
      | some (s, cs) => setItems? o fuel (state.add s) cs
      | none => (brackets? o fuel cs).bind fun (s, cs) => setItems? o fuel (state.add s) cs
    | cs =>
      match setOperator? cs with
      | some (op, cs) => setItems? o fuel (state.operate op) cs
      | none => (setRange? o cs).bind fun (s, cs) => setItems? o fuel (state.add s) cs

end

/-! ## Patterns -/

/-- The text behind the name of a group and the `>` that ends it. -/
def groupName? (cs : List Char) : Option (List Char) :=
  let name := cs.takeWhile (· != '>')
  let starts (c : Char) := c == '_' || (Text.isAlphanumeric c && !c.isDigit)
  let goesOn (c : Char) := Text.isAlphanumeric c || c ∈ ['_', '.', '[', ']']
  match name, cs.drop name.length with
  | c :: name, _ :: rest => if starts c ∧ name.all goesOn then some rest else none
  | _, _ => none

/-- A single character, set or anchor, or none for other signs. -/
def atom? (o : Options) (fuel : Nat) : List Char → Option (Pattern × List Char)
  | [] => none
  | '.' :: cs => o.dot?.map fun p => (p, cs)
  | '^' :: cs => some (.anchor (if o.eachLine then .lineStart o.crlf else .textStart), cs)
  | '$' :: cs => some (.anchor (if o.eachLine then .lineEnd o.crlf else .textEnd), cs)
  | '[' :: cs => (brackets? o fuel cs).map fun (s, cs) => (.char s, cs)
  | '\\' :: cs => (escape? o cs).bind fun (e, cs) =>
    match e with
    | .char c => (o.literal? c).map fun p => (p, cs)
    | .oneOf s => (o.accept? false s).map fun s => (.char s, cs)
    | .anchor a => some (.anchor a, cs)
  | '\x7b' :: _ => none
  | c :: cs => (o.literal? c).map fun p => (p, cs)

/-- What a repetition sign makes of a pattern. -/
def repetition? : Char → Option (Pattern → Bool → Pattern)
  | '?' => some option
  | '*' => some repeated
  | '+' => some many
  | _ => none

mutual

/-- Alternatives up to the end of the text or of the group, and the options behind them. -/
def alternatives? : (fuel : Nat) → Options → List Char → Option (Pattern × Options × List Char)
  | 0, _, _ => none
  | fuel + 1, o, cs => do
    let (p, o, rest) ← sequence? fuel o .empty none cs
    match rest with
    | '|' :: rest =>
      let (q, o, rest) ← alternatives? fuel o rest
      some (.either p q, o, rest)
    | rest => some (p, o, rest)

/-- A sequence, of which `done` and then `last` have been read. A repetition sign is for `last`. -/
def sequence? : (fuel : Nat) → Options → Pattern → Option Pattern → List Char →
    Option (Pattern × Options × List Char)
  | 0, _, _, _, _ => none
  | fuel + 1, o, done, last, cs =>
    let whole := last.elim done (.seq done)
    match o.skip cs with
    | [] => some (whole, o, [])
    | c :: cs =>
      if c = '|' ∨ c = ')' then some (whole, o, c :: cs)
      else if c = '(' then (group? fuel o cs).bind fun (p, o, cs) => sequence? fuel o whole p cs
      else
        match repetition? c, last with
        | some _, none => none
        | some repeatedly, some p =>
          let (reluctant, cs) := match o.skip cs with
            | '?' :: cs => (true, cs)
            | cs => (false, cs)
          sequence? fuel o done (some (repeatedly p (reluctant != o.swapped))) cs
        | none, _ => (atom? o fuel (c :: cs)).bind fun (p, cs) => sequence? fuel o whole (some p) cs

/-- A group from behind its bracket on. One that only switches options is no pattern, and its
options hold behind it. -/
def group? : (fuel : Nat) → Options → List Char → Option (Option Pattern × Options × List Char)
  | 0, _, _ => none
  | fuel + 1, o, cs =>
    let inside (o' : Options) (cs : List Char) : Option (Option Pattern × Options × List Char) := do
      match ← alternatives? fuel o' cs with
      | (p, _, ')' :: rest) => some (some p, o, rest)
      | _ => none
    match o.skip cs with
    | '?' :: 'P' :: '<' :: cs => (groupName? cs).bind (inside o)
    | '?' :: '<' :: cs => (groupName? cs).bind (inside o)
    | '?' :: ')' :: _ => none
    | '?' :: cs =>
      match options? o [] cs with
      | some (o', ':' :: cs) => inside o' cs
      | some (o', _ :: cs) => some (none, o', cs)
      | _ => none
    | cs => inside o cs

end

/-- Read a pattern. -/
def parse? (cs : List Char) : Option Pattern :=
  match alternatives? (3 * cs.length + 3) {} cs with
  | some (p, _, []) => some p
  | _ => none

end HostServices.Pattern
