import Verdict.Yaml.Cursor
/-!
# Plain scalars

A plain scalar has no quotes. It ends at a colon with a gap behind it, at a number sign with a gap
before it, in front of a document separator, at a line that is not indented enough, and inside
brackets at `,`, `?`, `[`, `]`, `{` and `}`. Breaks inside it are folded.
-/

namespace Verdict.Yaml

/-- Whether a character ends a plain scalar inside brackets. -/
def isFlowMark (c : Char) : Bool :=
  c = ',' || c = '?' || c = '[' || c = ']' || c = '\x7b' || c = '\x7d'

/-- Whether a colon ends a plain scalar in front of the given character. -/
def colonEnds (flow : Bool) (next : Option Char) : Bool :=
  isGapOrEnd next || (flow && next.any fun c => c ≠ '?' && isFlowMark c)

/-- The characters of a plain scalar up to the next gap or to its end. -/
def plainRun (flow : Bool) : List Char → List Char
  | [] => []
  | c :: rest =>
    if isGap c || (c = ':' && colonEnds flow rest.head?) || (flow && isFlowMark c) then []
    else c :: plainRun flow rest

/-- The breaks of the empty lines that follow, and the place behind them and the spaces of the next
line; no breaks are given in front of a document separator. -/
def plainBreaks : Nat → Cursor → List Char → Option (List Char) × Cursor
  | 0, c, _ => (none, c)
  | fuel + 1, c, breaks =>
    if c.peek = some ' ' then plainBreaks fuel c.advance breaks
    else
      match c.lineBreak? with
      | some (b, c) => if c.atSeparator then (none, c) else plainBreaks fuel c (breaks ++ [b])
      | none => (some breaks, c)

/-- The gap between two runs of a plain scalar. -/
structure PlainGap where
  /-- What the gap leaves in the scalar; nothing if the scalar ends here. -/
  text : List Char
  /-- The place behind the gap. -/
  cursor : Cursor
  /-- Whether the gap holds a break. -/
  broken : Bool

/-- The gap at a place. -/
def plainGap (c : Cursor) : PlainGap :=
  let (spaces, c) := c.span (· = ' ')
  match c.lineBreak? with
  | none => ⟨spaces, c, false⟩
  | some (b, c) =>
    if c.atSeparator then ⟨[], c, true⟩
    else
      match plainBreaks (c.rest.length + 1) c [] with
      | (none, c) => ⟨[], c, true⟩
      | (some breaks, c) => ⟨folded b breaks, c, true⟩

/-- The runs of a plain scalar from a place on. Lines at a column below `indent` do not belong to
it. The answer is its text, the place behind it, and whether the last gap held a break. -/
def plainRuns (flow : Bool) (indent : Int) :
    Nat → Cursor → List Char → PlainGap → List Char × Cursor × Bool
  | 0, c, text, gap => (text, c, gap.broken)
  | fuel + 1, c, text, gap =>
    let run := plainRun flow c.rest
    if c.peek = some '#' ∨ run.isEmpty then (text, c, gap.broken)
    else
      let text := text ++ gap.text ++ run
      let gap := plainGap (Cursor.skip run.length c)
      let left := !flow ∧ (gap.cursor.column : Int) < indent
      if gap.text.isEmpty ∨ gap.cursor.peek = some '#' ∨ left then
        (text, gap.cursor, gap.broken)
      else plainRuns flow indent fuel gap.cursor text gap

/-- The plain scalar at a place: its text, the place behind it, and whether it ends with a break. -/
def plainScalar (flow : Bool) (indent : Int) (c : Cursor) : List Char × Cursor × Bool :=
  plainRuns flow indent (c.rest.length + 1) c [] ⟨[], c, false⟩

end Verdict.Yaml
