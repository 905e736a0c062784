import Verdict.Text.Surrogate
import Verdict.Yaml.Cursor
/-!
# Quoted scalars

Between single quotes only the quote itself is special and is written twice. Between double quotes a
backslash starts an escape: a letter for a character, a code point in two, four or eight hexadecimal
digits, or a break that is left out. Breaks without a backslash are folded, and a document separator
at the start of a line is refused.
-/

namespace Verdict.Yaml

/-- The character that a letter behind a backslash stands for. -/
def escapedChar? : Char → Option Char
  | '0' => some '\x00'
  | 'a' => some '\x07'
  | 'b' => some '\x08'
  | 't' => some '\t'
  | '\t' => some '\t'
  | 'n' => some '\n'
  | 'v' => some '\x0b'
  | 'f' => some '\x0c'
  | 'r' => some '\r'
  | 'e' => some '\x1b'
  | ' ' => some ' '
  | '"' => some '"'
  | '\\' => some '\\'
  | '/' => some '/'
  | 'N' => some '\x85'
  | '_' => some '\xa0'
  | 'L' => some '\u2028'
  | 'P' => some '\u2029'
  | _ => none

/-- The number of hexadecimal digits behind a letter that starts a code point. -/
def escapeWidth? : Char → Option Nat
  | 'x' => some 2
  | 'u' => some 4
  | 'U' => some 8
  | _ => none

/-- The character with a code point. Half of a surrogate pair is none and has a stand-in. -/
def charOfCode (n : Nat) : Attempt Char :=
  if 0x80000000 ≤ n then .error (.fault .codePointSize)
  else if 0x110000 ≤ n then .error (.fault .codePointRange)
  else if Text.isSurrogate n then .ok (Text.standIn n)
  else .ok (Char.ofNat n)

/-- The breaks of the empty lines that follow, and the place behind them and the blanks of the next
line. -/
def quotedBreaks : Nat → Cursor → List Char → Attempt (List Char × Cursor)
  | 0, _, _ => refuse .unfinished
  | fuel + 1, c, breaks =>
    if c.atSeparator then refuse .separatorInQuote
    else
      let c := c.skipWhile fun x => x = ' ' || x = '\t'
      match c.lineBreak? with
      | some (b, c) => quotedBreaks fuel c (breaks ++ [b])
      | none => .ok (breaks, c)

/-- What a gap leaves in a quoted scalar, and the place behind it. -/
def quotedGap (c : Cursor) : Attempt (List Char × Cursor) := do
  let (blanks, c) := c.span fun x => x = ' ' || x = '\t'
  match c.lineBreak? with
  | none => if c.rest.isEmpty then refuse .unclosedQuote else return (blanks, c)
  | some (b, c) =>
    let (breaks, c) ← quotedBreaks (c.rest.length + 1) c []
    return (folded b breaks, c)

/-- What an escape stands for, and the place behind it; the place given is behind the backslash. -/
def escape (c : Cursor) : Attempt (List Char × Cursor) := do
  match c.peek with
  | none => refuse .badEscape
  | some x =>
    match escapedChar? x, escapeWidth? x with
    | some y, _ => return ([y], c.advance)
    | none, some width =>
      match hexNumber? width 0 c.advance.rest with
      | none => refuse .badEscape
      | some n => return ([← charOfCode n], Cursor.skip (width + 1) c)
    | none, none =>
      match c.lineBreak? with
      | some (_, c) => quotedBreaks (c.rest.length + 1) c []
      | none => refuse .badEscape

/-- The characters of a quoted scalar from a place inside it up to its closing quote. -/
def quotedChars (double : Bool) : Nat → Cursor → List Char → Attempt (List Char × Cursor)
  | 0, _, _ => refuse .unfinished
  | fuel + 1, c, text => do
    let (run, c) := c.span fun x => !(isGap x || x = '\'' || x = '"' || x = '\\')
    let text := text ++ run
    match c.peek with
    | none => refuse .unclosedQuote
    | some x =>
      if x = '\'' ∧ !double ∧ c.peekAt 1 = some '\'' then
        quotedChars double fuel (Cursor.skip 2 c) (text ++ ['\''])
      else if x = (if double then '"' else '\'') then return (text, c.advance)
      else if x = '\\' ∧ double then
        let (piece, c) ← escape c.advance
        quotedChars double fuel c (text ++ piece)
      else if isGap x then
        let (gap, c) ← quotedGap c
        quotedChars double fuel c (text ++ gap)
      else quotedChars double fuel c.advance (text ++ [x])

/-- The quoted scalar whose opening quote stands at a place. -/
def quotedScalar (double : Bool) (c : Cursor) : Attempt (List Char × Cursor) :=
  quotedChars double (c.rest.length + 1) c.advance []

end Verdict.Yaml
