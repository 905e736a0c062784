import Verdict.Yaml.Cursor
/-!
# Tokens

The tokens of a document: marks of documents and collections, entries, keys and values, and what
stands in them. Block collections have no brackets in the text; their start and end are tokens all
the same. Tokens that begin with `%`, `&`, `*` and `!` are read here from the place of their mark.
-/

namespace Verdict.Yaml

/-- A directive in front of a document. -/
inductive Directive where
  /-- The version of the format. -/
  | version (major minor : Nat)
  /-- What a handle in tags stands for. -/
  | handle (handle stem : String)
  /-- Any other directive. -/
  | other (name : String)
  deriving DecidableEq, Repr

/-- A token of a document. -/
inductive Token where
  /-- A directive. -/
  | directive (directive : Directive)
  /-- The mark `---`. -/
  | documentStart
  /-- The mark `...`. -/
  | documentEnd
  /-- A block sequence starts. -/
  | blockSequenceStart
  /-- A block mapping starts. -/
  | blockMappingStart
  /-- A block collection ends. -/
  | blockEnd
  /-- The bracket `[`. -/
  | flowSequenceStart
  /-- The bracket `]`. -/
  | flowSequenceEnd
  /-- The bracket `{`. -/
  | flowMappingStart
  /-- The bracket `}`. -/
  | flowMappingEnd
  /-- The dash of an entry of a block sequence. -/
  | blockEntry
  /-- The comma behind an entry of a collection in brackets. -/
  | flowEntry
  /-- A key comes. -/
  | key
  /-- A value comes. -/
  | value
  /-- A node is meant that has an anchor. -/
  | alias (name : String)
  /-- The next node has an anchor. -/
  | anchor (name : String)
  /-- The next node has a tag, with or without a handle. -/
  | tag (handle : Option String) (suffix : String)
  /-- A scalar, with or without quotes. -/
  | scalar (text : String) (plain : Bool)
  deriving DecidableEq, Repr

namespace Token

/-! ## Anchors and aliases -/

/-- Whether a name may end in front of the given character. -/
def endsName (next : Option Char) : Bool :=
  isGapOrEnd next || next.any fun c => "?:,]\x7d%@".toList.contains c || c.toNat = 96

/-- The name behind an anchor's or alias's mark, and the place behind it. -/
def anchorName (c : Cursor) : Attempt (String × Cursor) :=
  let (name, c) := c.advance.span isNameChar
  if name.isEmpty ∨ !endsName c.peek then refuse .badAnchor else .ok (String.ofList name, c)

/-! ## Tags -/

/-- Whether a character may stand in a tag. -/
def isUriChar (c : Char) : Bool :=
  c.isAlphanum || "-;/?:@&=+$,_.!~*'()[]%".toList.contains c

/-- The bytes that escapes of a percent sign and two digits write, and the place behind them. -/
def escapedBytes : Nat → Cursor → List UInt8 → Attempt (List UInt8 × Cursor)
  | 0, _, _ => refuse .unfinished
  | fuel + 1, c, bytes =>
    if c.peek = some '%' then
      match hexNumber? 2 0 c.advance.rest with
      | some n => escapedBytes fuel (Cursor.skip 3 c) (bytes ++ [n.toUInt8])
      | none => refuse .badTag
    else .ok (bytes, c)

/-- The characters of a tag from a place on, escapes resolved, and the place behind them. -/
def uriChars : Nat → Cursor → List Char → Attempt (List Char × Cursor)
  | 0, _, _ => refuse .unfinished
  | fuel + 1, c, text => do
    let (run, c) := c.span fun x => isUriChar x && x ≠ '%'
    let text := text ++ run
    if c.peek = some '%' then
      let (bytes, c) ← escapedBytes (c.rest.length + 1) c []
      match String.fromUTF8? (ByteArray.mk bytes.toArray) with
      | some s => uriChars fuel c (text ++ s.toList)
      | none => refuse .badTag
    else return (text, c)

/-- The tag text at a place, which may not be empty, and the place behind it. -/
def uri (c : Cursor) : Attempt (String × Cursor) := do
  let (text, c) ← uriChars (c.rest.length + 1) c []
  if text.isEmpty then refuse .badTag else return (String.ofList text, c)

/-- The handle at a place: `!`, or a name between two of them. -/
def handle (c : Cursor) : Attempt (String × Cursor) :=
  if c.peek ≠ some '!' then refuse .badTag
  else
    let c := c.advance
    if c.peek = some ' ' then .ok ("!", c)
    else
      let (name, c) := c.span isNameChar
      if c.peek = some '!' then .ok (String.ofList ('!' :: name ++ ['!']), c.advance)
      else refuse .badTag

/-- Whether a tag has a handle of more than one mark: a second `!` comes before the next space or
break. -/
def hasHandle (cs : List Char) : Bool :=
  (cs.takeWhile fun c => !isSpaceOrEnd (some c)).contains '!'

/-- The tag whose mark stands at a place, and the place behind it. -/
def tagAt (c : Cursor) : Attempt (Token × Cursor) := do
  let (token, c) ←
    (if c.peekAt 1 = some '<' then do
      let (suffix, c) ← uri (Cursor.skip 2 c)
      if c.peek = some '>' then return (.tag none suffix, c.advance) else refuse .badTag
    else if isGapOrEnd (c.peekAt 1) then return (.tag none "!", c.advance)
    else do
      let (handle, c) ← if hasHandle (c.rest.drop 1) then handle c else .ok ("!", c.advance)
      let (suffix, c) ← uri c
      return (.tag (some handle) suffix, c) : Attempt (Token × Cursor))
  if isSpaceOrEnd c.peek then return (token, c) else refuse .badTag

/-! ## Directives -/

/-- The number at a place, and the place behind it. -/
def versionNumber (c : Cursor) : Attempt (Nat × Cursor) :=
  let (digits, c) := c.span Char.isDigit
  if digits.isEmpty then refuse .badDirective
  else if digitLimit < digits.length then .error (.fault (.longNumeral digits.length))
  else .ok (digits.foldl (fun n d => 10 * n + (d.toNat - 48)) 0, c)

/-- The version at a place: two numbers with a point between them. -/
def version (c : Cursor) : Attempt (Directive × Cursor) := do
  let (major, c) ← versionNumber c.skipSpaces
  if c.peek ≠ some '.' then refuse .badDirective
  else
    let (minor, c) ← versionNumber c.advance
    if isSpaceOrEnd c.peek then return (.version major minor, c) else refuse .badDirective

/-- The handle and its meaning at a place. -/
def handleMeaning (c : Cursor) : Attempt (Directive × Cursor) := do
  let (name, c) ← handle c.skipSpaces
  if c.peek ≠ some ' ' then refuse .badDirective
  else
    let (stem, c) ← uri c.skipSpaces
    if isSpaceOrEnd c.peek then return (.handle name stem, c) else refuse .badDirective

/-- The directive whose mark stands at a place, and the place behind its line. -/
def directiveAt (c : Cursor) : Attempt (Token × Cursor) := do
  let (name, c) := c.advance.span isNameChar
  if name.isEmpty ∨ !isSpaceOrEnd c.peek then refuse .badDirective
  else
    let name := String.ofList name
    let (parsed, c) ←
      if name = "YAML" then version c
      else if name = "TAG" then handleMeaning c
      else .ok (.other name, c.skipWhile fun x => !isBreak x)
    return (.directive parsed, ← c.endOfLine .badDirective)

end Token

end Verdict.Yaml
