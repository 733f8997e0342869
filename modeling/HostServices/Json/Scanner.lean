import HostServices.Json.Basic
import HostServices.Text.Bytes

/-!
# From text to documents

The scanner accepts the JSON grammar, without limits on nesting, and keeps what it has read when
the text stops being JSON.
-/

namespace HostServices.Json

/-- The blanks between tokens. -/
def isSpace (c : Char) : Bool :=
  c == ' ' || c == '\n' || c == '\t' || c == '\r'

/-- The text after leading blanks. -/
def skipSpace (cs : List Char) : List Char :=
  cs.dropWhile isSpace

/-- The text after the rest of a keyword. -/
def keyword : List Char → List Char → Except Problem (List Char)
  | [], cs => .ok cs
  | _ :: _, [] => .error .truncated
  | k :: ks, c :: cs => if k = c then keyword ks cs else .error .malformed

/-! ## Strings -/

/-- The value of a hexadecimal digit. -/
def hexValue? (c : Char) : Option Nat :=
  if '0' ≤ c ∧ c ≤ '9' then some (c.toNat - '0'.toNat)
  else if 'a' ≤ c ∧ c ≤ 'f' then some (c.toNat - 'a'.toNat + 10)
  else if 'A' ≤ c ∧ c ≤ 'F' then some (c.toNat - 'A'.toNat + 10)
  else none

/-- Four hexadecimal digits. Fewer than four bytes of text count as its end. -/
def hexUnit (cs : List Char) : Except Problem (Nat × List Char) :=
  if Text.byteCount (cs.take 4) < 4 then .error .truncated
  else
    match cs with
    | a :: b :: c :: d :: rest =>
      match hexValue? a, hexValue? b, hexValue? c, hexValue? d with
      | some a, some b, some c, some d => .ok (((a * 16 + b) * 16 + c) * 16 + d, rest)
      | _, _, _, _ => .error .malformed
    | _ => .error .malformed

/-- The first half of a surrogate pair. -/
def isHighSurrogate (n : Nat) : Bool :=
  0xd800 ≤ n && n ≤ 0xdbff

/-- The second half of a surrogate pair. -/
def isLowSurrogate (n : Nat) : Bool :=
  0xdc00 ≤ n && n ≤ 0xdfff

/-- The second half of a pair, which must follow at once. -/
def lowSurrogate : List Char → Except Problem (Nat × List Char)
  | [] => .error .truncated
  | ['\\'] => .error .truncated
  | '\\' :: 'u' :: cs => do
    let (n, rest) ← hexUnit cs
    if isLowSurrogate n then .ok (n, rest) else .error .malformed
  | _ => .error .malformed

/-- The character of a one-letter escape. -/
def escape? : Char → Option Char
  | '"' => some '"'
  | '\\' => some '\\'
  | '/' => some '/'
  | 'b' => some '\x08'
  | 'f' => some '\x0c'
  | 'n' => some '\n'
  | 'r' => some '\r'
  | 't' => some '\t'
  | _ => none

/-- What the body of a string comes to: its characters so far, the first fault in its surrogates,
and the text behind the closing quote or the problem instead of it. -/
structure Body where
  chars : List Char
  fault : Option Problem
  rest : Except Problem (List Char)

/-- Scan the body of a string. `fuel` is at least the length of the text. -/
def stringBody : Nat → List Char → List Char → Option Problem → Body
  | 0, _, done, fault => ⟨done, fault, .error .truncated⟩
  | fuel + 1, cs, done, fault =>
    match cs with
    | [] => ⟨done, fault, .error .truncated⟩
    | '"' :: rest => ⟨done, fault, .ok rest⟩
    | ['\\'] => ⟨done, fault, .error .truncated⟩
    | '\\' :: 'u' :: cs =>
      match hexUnit cs with
      | .error p => ⟨done, fault, .error p⟩
      | .ok (n, rest) =>
        if isHighSurrogate n then
          match lowSurrogate rest with
          | .ok (m, rest) =>
            let c := Char.ofNat ((n - 0xd800) * 0x400 + (m - 0xdc00) + 0x10000)
            stringBody fuel rest (c :: done) fault
          | .error p => stringBody fuel rest done (fault.or (some p))
        else if isLowSurrogate n then stringBody fuel rest done (fault.or (some .malformed))
        else stringBody fuel rest (Char.ofNat n :: done) fault
    | '\\' :: e :: rest =>
      match escape? e with
      | some c => stringBody fuel rest (c :: done) fault
      | none => ⟨done, fault, .error .malformed⟩
    | c :: rest =>
      if c.toNat < 0x20 then ⟨done, fault, .error .malformed⟩
      else stringBody fuel rest (c :: done) fault

/-- A string whose opening quote has been read. -/
def token (cs : List Char) : Except Break (Token × List Char) :=
  let body := stringBody (cs.length + 1) cs [] none
  match body.rest with
  | .ok rest => .ok (⟨String.ofList body.chars.reverse, body.fault.isNone⟩, rest)
  | .error p => .error ⟨body.fault.getD p, p⟩

/-! ## Numbers -/

/-- A missing digit: a reader notices the end of the text, one who passes over does not. -/
def missingDigit (cs : List Char) : Break :=
  if cs = [] then ⟨.truncated, .malformed⟩ else .same .malformed

/-- The leading decimal digits and the text behind them. -/
def digits (cs : List Char) : List Char × List Char :=
  (cs.takeWhile Char.isDigit, cs.dropWhile Char.isDigit)

/-- The number that decimal digits stand for. -/
def digitsValue (ds : List Char) : Nat :=
  ds.foldl (fun n c => 10 * n + (c.toNat - '0'.toNat)) 0

/-- The digits before the point, without a leading zero. -/
def wholePart (cs : List Char) : Except Break (List Char × List Char) :=
  match digits cs with
  | ([], _) => .error (missingDigit cs)
  | (['0'], rest) => .ok (['0'], rest)
  | ('0' :: _, _) => .error (.same .malformed)
  | (ds, rest) => .ok (ds, rest)

/-- The digits behind a point, if there is one. -/
def fraction : List Char → Except Break (Option (List Char) × List Char)
  | '.' :: cs =>
    match digits cs with
    | ([], _) => .error (missingDigit cs)
    | (ds, rest) => .ok (some ds, rest)
  | cs => .ok (none, cs)

/-- The exponent, if there is one. -/
def exponent (cs : List Char) : Except Break (Option Int × List Char) :=
  match cs with
  | e :: cs =>
    if e = 'e' ∨ e = 'E' then
      let (negative, cs) := match cs with
        | '-' :: cs => (true, cs)
        | '+' :: cs => (false, cs)
        | _ => (false, cs)
      match digits cs with
      | ([], _) => .error (missingDigit cs)
      | (ds, rest) =>
        let n : Int := digitsValue ds
        .ok (some (if negative then -n else n), rest)
    else .ok (none, e :: cs)
  | [] => .ok (none, [])

/-- A number whose sign has been read. -/
def literal (negative : Bool) (cs : List Char) : Except Break (Literal × List Char) := do
  let (whole, cs) ← wholePart cs
  let (places?, cs) ← fraction cs
  let (exponent?, cs) ← exponent cs
  let places := places?.getD []
  .ok (⟨negative, digitsValue (whole ++ places), exponent?.getD 0 - places.length,
    places?.isNone && exponent?.isNone⟩, cs)

/-! ## Values -/

mutual

/-- A value and the text behind it, which is empty behind a break. -/
def value : Nat → List Char → Json × List Char
  | 0, _ => (.broken (.same .truncated), [])
  | fuel + 1, cs =>
    match skipSpace cs with
    | [] => (.broken (.same .truncated), [])
    | 'n' :: cs => constant .null (keyword "ull".toList cs)
    | 't' :: cs => constant (.bool true) (keyword "rue".toList cs)
    | 'f' :: cs => constant (.bool false) (keyword "alse".toList cs)
    | '"' :: cs =>
      match token cs with
      | .ok (t, rest) => (.string t, rest)
      | .error b => (.broken b, [])
    | '[' :: cs =>
      let (is, ending, rest) := items fuel true cs
      (.array is ending, rest)
    | '{' :: cs =>
      let (ms, ending, rest) := members fuel true cs
      (.object ms ending, rest)
    | '-' :: cs => numeral (literal true cs)
    | c :: cs =>
      if c.isDigit then numeral (literal false (c :: cs)) else (.broken (.same .malformed), [])
where
  /-- A keyword's value, or the break inside it. -/
  constant (j : Json) : Except Problem (List Char) → Json × List Char
    | .ok rest => (j, rest)
    | .error p => (.broken (.same p), [])
  /-- A number's value, or the break inside it. -/
  numeral : Except Break (Literal × List Char) → Json × List Char
    | .ok (n, rest) => (.number n, rest)
    | .error b => (.broken b, [])

/-- The items of an array up to its bracket. -/
def items : Nat → Bool → List Char → List Json × Ending × List Char
  | 0, _, _ => ([], .cut false (.same .truncated), [])
  | fuel + 1, first, cs =>
    match skipSpace cs with
    | [] => ([], .cut false (.same .truncated), [])
    | ']' :: rest => ([], .closed, rest)
    | c :: cs =>
      if first then more fuel (c :: cs)
      else if c = ',' then
        match skipSpace cs with
        | [] => ([], .cut true (.same .truncated), [])
        | ']' :: _ => ([], .cut true (.same .malformed), [])
        | cs => more fuel cs
      else ([], .cut false (.same .malformed), [])

/-- One item and those that follow it. -/
def more : Nat → List Char → List Json × Ending × List Char
  | 0, _ => ([], .cut false (.same .truncated), [])
  | fuel + 1, cs =>
    match value fuel cs with
    | (.broken b, _) => ([.broken b], .cut false b, [])
    | (item, rest) =>
      let (is, ending, rest) := items fuel false rest
      (item :: is, ending, rest)

/-- The members of an object up to its brace. -/
def members : Nat → Bool → List Char → List (Token × Json) × Ending × List Char
  | 0, _, _ => ([], .cut false (.same .truncated), [])
  | fuel + 1, first, cs =>
    match skipSpace cs with
    | [] => ([], .cut false (.same .truncated), [])
    | '}' :: rest => ([], .closed, rest)
    | '"' :: cs => if first then member fuel cs else ([], .cut false (.same .malformed), [])
    | c :: cs =>
      if c = ',' ∧ ¬first then
        match skipSpace cs with
        | [] => ([], .cut true (.same .truncated), [])
        | '"' :: cs => member fuel cs
        | _ => ([], .cut true (.same .malformed), [])
      else ([], .cut false (.same .malformed), [])

/-- One member, whose opening quote has been read, and those that follow it. -/
def member : Nat → List Char → List (Token × Json) × Ending × List Char
  | 0, _ => ([], .cut false (.same .truncated), [])
  | fuel + 1, cs =>
    match token cs with
    | .error b => ([], .cut true b, [])
    | .ok (key, cs) =>
      match skipSpace cs with
      | [] => ([(key, .broken (.same .truncated))], .cut false (.same .truncated), [])
      | ':' :: cs =>
        match value fuel cs with
        | (.broken b, _) => ([(key, .broken b)], .cut false b, [])
        | (v, rest) =>
          let (ms, ending, rest) := members fuel false rest
          ((key, v) :: ms, ending, rest)
      | _ => ([(key, .broken (.same .malformed))], .cut false (.same .malformed), [])

end

/-- A document, and whether anything but blanks follows its value. -/
structure Document where
  root : Json
  trailing : Bool

/-- Scan a whole text. -/
def scan (text : String) : Document :=
  let cs := text.toList
  let (root, rest) := value (3 * cs.length + 3) cs
  ⟨root, skipSpace rest ≠ []⟩

end HostServices.Json
