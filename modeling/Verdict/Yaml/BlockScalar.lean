import Verdict.Yaml.Cursor
/-!
# Block scalars

A block scalar stands on the lines below its header, which says whether its breaks are kept (`|`) or
folded (`>`), how the breaks at its end are treated, and, if it must, how far it is indented.
Without that its first line that is not empty sets the indentation.
-/

namespace Verdict.Yaml

/-- What happens to the breaks at the end of a block scalar. -/
inductive Chomping where
  /-- All are dropped. -/
  | strip
  /-- The first stays. -/
  | clip
  /-- All stay. -/
  | keep
  deriving DecidableEq, Repr

/-- The chomping that a sign in a header asks for. -/
def chompingOf? : Option Char → Option Chomping
  | some '+' => some .keep
  | some '-' => some .strip
  | _ => none

/-- The indentation that a digit in a header asks for, zero being refused. -/
def incrementOf? (c : Option Char) : Attempt (Option Nat) :=
  match c with
  | some x =>
    if x = '0' then refuse .badBlockHeader
    else if x.isDigit then .ok (some (x.toNat - 48))
    else .ok none
  | none => .ok none

/-- A header from behind its first mark: chomping, indentation, and the place behind the line. -/
def blockHeader (c : Cursor) : Attempt (Chomping × Option Nat × Cursor) := do
  let (chomping, increment, c) ←
    (match chompingOf? c.peek with
     | some chomping => do
       let c := c.advance
       let increment ← incrementOf? c.peek
       return (chomping, increment, if increment.isSome then c.advance else c)
     | none => do
       match ← incrementOf? c.peek with
       | none => return (.clip, none, c)
       | some n =>
         let c := c.advance
         match chompingOf? c.peek with
         | some chomping => return (chomping, some n, c.advance)
         | none => return (.clip, some n, c) : Attempt (Chomping × Option Nat × Cursor))
  if isSpaceOrEnd c.peek then return (chomping, increment, ← c.endOfLine .badBlockHeader)
  else refuse .badBlockHeader

/-- The breaks of the empty lines in front of a scalar whose indentation is open, the widest run of
spaces on them and on the line that follows, and the place behind. -/
def openingBreaks : Nat → Cursor → List Char → Nat → List Char × Nat × Cursor
  | 0, c, breaks, widest => (breaks, widest, c)
  | fuel + 1, c, breaks, widest =>
    if c.peek = some ' ' then
      let c := c.advance
      openingBreaks fuel c breaks (max widest c.column)
    else
      match c.lineBreak? with
      | some (b, c) => openingBreaks fuel c (breaks ++ [b]) widest
      | none => (breaks, widest, c)

/-- The place behind spaces, up to a column. -/
def skipIndent : Nat → Nat → Cursor → Cursor
  | 0, _, c => c
  | fuel + 1, indent, c =>
    if c.column < indent ∧ c.peek = some ' ' then skipIndent fuel indent c.advance else c

/-- The breaks of the empty lines that follow, and the place behind them and the indentation of the
next line. -/
def blockBreaks (indent : Nat) : Nat → Cursor → List Char → List Char × Cursor
  | 0, c, breaks => (breaks, c)
  | fuel + 1, c, breaks =>
    let c := skipIndent indent indent c
    match c.lineBreak? with
    | some (b, c) => blockBreaks indent fuel c (breaks ++ [b])
    | none => (breaks, c)

/-- Whether a character is a space or a tab. -/
def isInlineBlank (c : Option Char) : Bool := c = some ' ' || c = some '\t'

/-- The lines of a block scalar from a place at its indentation on: its text, the break of its last
line, the breaks behind that, and the place behind it all. -/
def blockLines (isFolded : Bool) (indent : Nat) :
    Nat → Cursor → List Char → List Char → List Char → List Char × List Char × List Char × Cursor
  | 0, c, text, last, breaks => (text, last, breaks, c)
  | fuel + 1, c, text, last, breaks =>
    if c.column ≠ indent ∨ c.rest.isEmpty then (text, last, breaks, c)
    else
      let startsBlank := isInlineBlank c.peek
      let (line, c) := c.span fun x => !isBreak x
      let text := text ++ breaks ++ line
      let (last, c) := match c.lineBreak? with
        | some (b, c) => ([b], c)
        | none => ([], c)
      let (breaks, c) := blockBreaks indent (c.rest.length + 1) c []
      if c.column = indent ∧ !c.rest.isEmpty then
        let joint :=
          if isFolded ∧ last = ['\n'] ∧ !startsBlank ∧ !isInlineBlank c.peek then
            if breaks.isEmpty then [' '] else []
          else last
        blockLines isFolded indent fuel c (text ++ joint) last breaks
      else (text, last, breaks, c)

/-- The block scalar whose first mark stands at a place, inside a collection indented by `parent`.
-/
def blockScalar (isFolded : Bool) (parent : Int) (c : Cursor) : Attempt (List Char × Cursor) := do
  let (chomping, increment, c) ← blockHeader c.advance
  let least := max 1 (parent + 1).toNat
  let (indent, breaks, c) := match increment with
    | none =>
      let (breaks, widest, c) := openingBreaks (c.rest.length + 1) c [] 0
      (max least widest, breaks, c)
    | some n =>
      let indent := least + n - 1
      let (breaks, c) := blockBreaks indent (c.rest.length + 1) c []
      (indent, breaks, c)
  let (text, last, breaks, c) := blockLines isFolded indent (c.rest.length + 1) c [] [] breaks
  match chomping with
  | .strip => return (text, c)
  | .clip => return (text ++ last, c)
  | .keep => return (text ++ last ++ breaks, c)

end Verdict.Yaml
