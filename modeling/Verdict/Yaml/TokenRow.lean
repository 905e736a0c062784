import Verdict.Yaml.BlockScalar
import Verdict.Yaml.PlainScalar
import Verdict.Yaml.QuotedScalar
import Verdict.Yaml.Token
/-!
# From characters to tokens

Tokens are read from left to right. Outside brackets the columns at which block collections start
are kept on a stack; a line that starts left of one ends it. A scalar, an alias or a collection in
brackets may turn out to be a key when a colon follows on the same line, so the place of the token
is remembered, one for each level of brackets, and the key's token is put in front of it when the
colon comes. A node that starts a line at the column of the enclosing mapping has to be a key.
-/

namespace Verdict.Yaml

/-- A token that may turn out to begin a key. -/
structure KeyCandidate where
  /-- The level of brackets at which it stands. -/
  level : Nat
  /-- The number of tokens before it. -/
  tokens : Nat
  /-- Whether it has to be a key. -/
  required : Bool
  /-- Where it starts. -/
  cursor : Cursor

/-- How far a text has been read. -/
structure Reader where
  /-- The place in the text. -/
  cursor : Cursor
  /-- The number of open brackets. -/
  level : Nat
  /-- The column of the innermost block collection, `-1` outside all. -/
  indent : Int
  /-- The columns of the block collections around it, innermost first. -/
  outer : List Int
  /-- Whether a key may start here. -/
  keyAllowed : Bool
  /-- The candidates for keys. -/
  candidates : List KeyCandidate
  /-- The tokens read, the last one first. -/
  tokens : List Token

namespace Reader

/-- The start of a text. -/
def start (cs : List Char) : Reader :=
  ⟨Cursor.start cs, 0, -1, [], true, [], []⟩

/-- Whether brackets are open. -/
def inFlow (r : Reader) : Bool := r.level ≠ 0

/-- The reader with one more token. -/
def emit (r : Reader) (t : Token) : Reader := { r with tokens := t :: r.tokens }

/-- The reader with a token in front of all but the first `n` tokens. -/
def emitAt (r : Reader) (n : Nat) (t : Token) : Reader :=
  let later := r.tokens.length - n
  { r with tokens := r.tokens.take later ++ t :: r.tokens.drop later }

/-! ## Indentation -/

/-- The indentation and the columns around it once every column beyond the given one is closed, and
the number of columns closed. -/
def closed (column : Int) (indent : Int) : List Int → Nat × Int × List Int
  | [] => if column < indent then (1, -1, []) else (0, indent, [])
  | i :: outer =>
    if column < indent then
      let (n, rest) := closed column i outer
      (n + 1, rest)
    else (0, indent, i :: outer)

/-- The reader after the block collections that start beyond a column have ended. -/
def unwind (r : Reader) (column : Int) : Reader :=
  if r.inFlow then r
  else
    let (n, indent, outer) := closed column r.indent r.outer
    { r with indent, outer, tokens := List.replicate n .blockEnd ++ r.tokens }

/-- The reader after a block collection may have started at a column, its first token standing
behind `n` tokens. -/
def startBlock (r : Reader) (n : Nat) (column : Int) (t : Token) : Reader :=
  if r.indent < column then
    { r.emitAt n t with indent := column, outer := r.indent :: r.outer }
  else r

/-! ## Keys -/

/-- The reader without the candidate at its level, which must not have to be a key. -/
def dropCandidate (r : Reader) : Attempt Reader :=
  if r.candidates.any fun k => k.level = r.level && k.required then refuse .missingColon
  else .ok { r with candidates := r.candidates.filter fun k => k.level ≠ r.level }

/-- Whether a candidate is too far back to be a key: on an earlier line, or more than 1024
characters before. -/
def isStale (r : Reader) (k : KeyCandidate) : Bool :=
  k.cursor.line ≠ r.cursor.line || k.cursor.index + 1024 < r.cursor.index

/-- The reader without stale candidates, none of which must have to be a key. -/
def dropStale (r : Reader) : Attempt Reader :=
  if r.candidates.any fun k => r.isStale k && k.required then refuse .missingColon
  else .ok { r with candidates := r.candidates.filter fun k => !r.isStale k }

/-- The reader with the next token as a candidate, where a key may start. -/
def addCandidate (r : Reader) : Attempt Reader :=
  if r.keyAllowed then do
    let r ← r.dropCandidate
    let required := !r.inFlow && r.indent = r.cursor.column
    return { r with
      candidates := ⟨r.level, r.tokens.length, required, r.cursor⟩ :: r.candidates }
  else .ok r

/-! ## One token -/

/-- The reader in front of the next token: behind spaces, comments and breaks. -/
def skipGaps : Nat → Reader → Reader
  | 0, r => r
  | fuel + 1, r =>
    let c := r.cursor.skipSpaces.skipComment
    -- a new line may start a key, but not within brackets
    match c.lineBreak? with
    | some (_, c) => skipGaps fuel { r with cursor := c, keyAllowed := r.keyAllowed || !r.inFlow }
    | none => { r with cursor := c }

/-- The reader in front of the next token, with block collections ended that end before it. -/
def settle (r : Reader) : Attempt Reader := do
  -- a byte order mark counts only in front of everything
  let r := if r.cursor.index = 0 ∧ r.cursor.peek = some '\uFEFF' then
    { r with cursor := r.cursor.advance } else r
  let r ← (skipGaps (r.cursor.rest.length + 1) r).dropStale
  return r.unwind r.cursor.column

/-- Reads a directive. -/
def directive (r : Reader) : Attempt Reader := do
  let r ← (r.unwind (-1)).dropCandidate
  let (t, c) ← Token.directiveAt r.cursor
  return { r.emit t with cursor := c, keyAllowed := false }

/-- Reads a mark of three characters between documents. -/
def separator (r : Reader) (t : Token) : Attempt Reader := do
  let r ← (r.unwind (-1)).dropCandidate
  return { r.emit t with cursor := Cursor.skip 3 r.cursor, keyAllowed := false }

/-- Reads an opening bracket. -/
def openBracket (r : Reader) (t : Token) : Attempt Reader := do
  let r ← r.addCandidate
  return { r.emit t with cursor := r.cursor.advance, level := r.level + 1, keyAllowed := true }

/-- Reads a closing bracket. -/
def closeBracket (r : Reader) (t : Token) : Attempt Reader := do
  let r ← r.dropCandidate
  if r.level = 0 then refuse .unopenedBracket
  else
    return { r.emit t with
      cursor := r.cursor.advance, level := r.level - 1, keyAllowed := false }

/-- Reads a comma. -/
def comma (r : Reader) : Attempt Reader := do
  let r ← r.dropCandidate
  return { r.emit .flowEntry with cursor := r.cursor.advance, keyAllowed := true }

/-- Reads the dash of an entry. -/
def dash (r : Reader) : Attempt Reader := do
  if !r.inFlow ∧ !r.keyAllowed then refuse .entryNotAllowed
  else
    let r := if r.inFlow then r
      else r.startBlock r.tokens.length r.cursor.column .blockSequenceStart
    let r ← r.dropCandidate
    return { r.emit .blockEntry with cursor := r.cursor.advance, keyAllowed := true }

/-- Reads the question mark of a key. -/
def question (r : Reader) : Attempt Reader := do
  if !r.inFlow ∧ !r.keyAllowed then refuse .keyNotAllowed
  else
    let r := if r.inFlow then r
      else r.startBlock r.tokens.length r.cursor.column .blockMappingStart
    let r ← r.dropCandidate
    return { r.emit .key with cursor := r.cursor.advance, keyAllowed := !r.inFlow }

/-- Reads the colon of a value. A candidate at its level becomes a key. -/
def colon (r : Reader) : Attempt Reader := do
  match r.candidates.find? fun k => k.level = r.level with
  | some k =>
    let r := { r with candidates := r.candidates.filter fun k => k.level ≠ r.level }
    -- what was read since the candidate turns out to be a key
    let r := r.emitAt k.tokens .key
    let r := if r.inFlow then r
      else r.startBlock k.tokens k.cursor.column .blockMappingStart
    return { r.emit .value with cursor := r.cursor.advance, keyAllowed := false }
  | none =>
    if !r.inFlow ∧ !r.keyAllowed then refuse .valueNotAllowed
    else
      let r := if r.inFlow then r
        else r.startBlock r.tokens.length r.cursor.column .blockMappingStart
      let r ← r.dropCandidate
      return { r.emit .value with cursor := r.cursor.advance, keyAllowed := !r.inFlow }

/-- Reads an alias or an anchor. -/
def named (r : Reader) (make : String → Token) : Attempt Reader := do
  let r ← r.addCandidate
  let (name, c) ← Token.anchorName r.cursor
  return { r.emit (make name) with cursor := c, keyAllowed := false }

/-- Reads a tag. -/
def tag (r : Reader) : Attempt Reader := do
  let r ← r.addCandidate
  let (t, c) ← Token.tagAt r.cursor
  return { r.emit t with cursor := c, keyAllowed := false }

/-- Reads a block scalar. -/
def block (r : Reader) (isFolded : Bool) : Attempt Reader := do
  let r ← r.dropCandidate
  let (text, c) ← blockScalar isFolded r.indent r.cursor
  return { r.emit (.scalar (String.ofList text) false) with cursor := c, keyAllowed := true }

/-- Reads a quoted scalar. -/
def quoted (r : Reader) (double : Bool) : Attempt Reader := do
  let r ← r.addCandidate
  let (text, c) ← quotedScalar double r.cursor
  return { r.emit (.scalar (String.ofList text) false) with cursor := c, keyAllowed := false }

/-- Reads a plain scalar. -/
def plain (r : Reader) : Attempt Reader := do
  let r ← r.addCandidate
  let (text, c, broken) := plainScalar r.inFlow (r.indent + 1) r.cursor
  return { r.emit (.scalar (String.ofList text) true) with cursor := c, keyAllowed := broken }

/-- Whether a plain scalar starts with a character in front of the next one. -/
def startsPlain (flow : Bool) (x : Char) (next : Option Char) : Bool :=
  !(isGap x || "-?:,[]\x7b\x7d#&*!|>'\"%@".toList.contains x || x.toNat = 96) ||
    (!isGapOrEnd next && (x = '-' || (!flow && (x = '?' || x = ':'))))

/-- Reads the next token, which starts with the given character. -/
def token (r : Reader) (x : Char) : Attempt Reader :=
  let next := r.cursor.peekAt 1
  let atStart : Bool := r.cursor.column = 0
  if x = '%' ∧ atStart then r.directive
  else if x = '-' ∧ atStart ∧ r.cursor.atSeparator then r.separator .documentStart
  else if x = '.' ∧ atStart ∧ r.cursor.atSeparator then r.separator .documentEnd
  else if x = '[' then r.openBracket .flowSequenceStart
  else if x = '\x7b' then r.openBracket .flowMappingStart
  else if x = ']' then r.closeBracket .flowSequenceEnd
  else if x = '\x7d' then r.closeBracket .flowMappingEnd
  else if x = ',' then r.comma
  else if x = '-' ∧ isGapOrEnd next then r.dash
  else if x = '?' ∧ (r.inFlow ∨ isGapOrEnd next) then r.question
  else if x = ':' ∧ (r.inFlow ∨ isGapOrEnd next) then r.colon
  else if x = '*' then r.named .alias
  else if x = '&' then r.named .anchor
  else if x = '!' then r.tag
  else if x = '|' ∧ !r.inFlow then r.block false
  else if x = '>' ∧ !r.inFlow then r.block true
  else if x = '\'' then r.quoted false
  else if x = '"' then r.quoted true
  else if startsPlain r.inFlow x next then r.plain
  else refuse (.strayCharacter x)

/-- Reads tokens up to the end of the text, each taking at least one character. -/
def run : Nat → Reader → Attempt (List Token)
  | 0, _ => refuse .unfinished
  | fuel + 1, r => do
    let r ← r.settle
    match r.cursor.peek with
    | none =>
      let r ← (r.unwind (-1)).dropCandidate
      return r.tokens.reverse
    | some x => run fuel (← r.token x)

end Reader

/-- The tokens of a text. -/
def tokens (cs : List Char) : Attempt (List Token) :=
  match cs.find? fun c => !isReadable c with
  | some c => refuse (.unreadable c)
  | none => (Reader.start cs).run (cs.length + 1)

end Verdict.Yaml
