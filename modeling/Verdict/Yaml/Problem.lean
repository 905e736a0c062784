import Verdict.Fault
/-!
# Problems of documents

A text is refused as a document for one of these causes: its characters do not form tokens, its
tokens do not form a node, an alias or an anchor is amiss, or a node has no value.
-/

namespace Verdict.Yaml

/-- Why a text is no document. -/
inductive Problem where
  /-- A character may not stand in a document. -/
  | unreadable (c : Char)
  /-- No token starts with the character. -/
  | strayCharacter (c : Char)
  /-- A key that must be there is not followed by a colon. -/
  | missingColon
  /-- A sequence entry stands where none is allowed. -/
  | entryNotAllowed
  /-- A mapping key stands where none is allowed. -/
  | keyNotAllowed
  /-- A mapping value stands where none is allowed. -/
  | valueNotAllowed
  /-- A bracket is closed that was not opened. -/
  | unopenedBracket
  /-- A directive is not well formed. -/
  | badDirective
  /-- An anchor or an alias is not well formed. -/
  | badAnchor
  /-- A tag is not well formed. -/
  | badTag
  /-- A backslash is followed by no known escape. -/
  | badEscape
  /-- The first line of a block scalar is not well formed. -/
  | badBlockHeader
  /-- A quoted scalar does not end. -/
  | unclosedQuote
  /-- A document separator stands inside a quoted scalar. -/
  | separatorInQuote
  /-- A node is expected and something else comes. -/
  | expectedNode
  /-- The next entry of a collection, or its end, is expected and something else comes. -/
  | expectedEntry
  /-- A document is expected to start and something else comes. -/
  | expectedDocument
  /-- There is more than one document. -/
  | severalDocuments
  /-- A directive is given twice. -/
  | repeatedDirective
  /-- The version of the format is not supported. -/
  | unsupportedVersion (major : Nat)
  /-- No directive defines the handle of a tag. -/
  | undefinedHandle (handle : String)
  /-- No node before the alias has the anchor. -/
  | undefinedAlias (anchor : String)
  /-- Two nodes have the anchor. -/
  | repeatedAnchor (anchor : String)
  /-- A node is not of the kind that its tag asks for. -/
  | wrongKind (tag : String)
  /-- There are no values with the tag. -/
  | unknownTag (tag : String)
  /-- A collection is used as a key. -/
  | collectionAsKey
  /-- What is merged into a mapping is neither a mapping nor a list of mappings. -/
  | badMerge
  /-- A binary scalar is not in base 64. -/
  | badBinary
  /-- An entry of a list of pairs is not a mapping of one key. -/
  | badPair
  /-- The text was not taken up to its end. -/
  | unfinished
  deriving DecidableEq, Repr

/-- The words of a problem. -/
def Problem.message : Problem → String
  | .unreadable c => "character " ++ Text.quoted (String.ofList [c]) ++ " is not allowed"
  | .strayCharacter c => "no token starts with " ++ Text.quoted (String.ofList [c])
  | .missingColon => "a colon is missing behind a key"
  | .entryNotAllowed => "sequence entries are not allowed here"
  | .keyNotAllowed => "mapping keys are not allowed here"
  | .valueNotAllowed => "mapping values are not allowed here"
  | .unopenedBracket => "a closing bracket has no opening one"
  | .badDirective => "malformed directive"
  | .badAnchor => "malformed anchor or alias"
  | .badTag => "malformed tag"
  | .badEscape => "unknown escape"
  | .badBlockHeader => "malformed block scalar header"
  | .unclosedQuote => "a quoted scalar does not end"
  | .separatorInQuote => "a document separator stands inside a quoted scalar"
  | .expectedNode => "a node is expected"
  | .expectedEntry => "the next entry or the end of a collection is expected"
  | .expectedDocument => "the start of a document is expected"
  | .severalDocuments => "there is more than one document"
  | .repeatedDirective => "a directive is repeated"
  | .unsupportedVersion major => "version " ++ toString major ++ " is not supported"
  | .undefinedHandle handle => "undefined tag handle " ++ Text.quoted handle
  | .undefinedAlias anchor => "undefined alias " ++ Text.quoted anchor
  | .repeatedAnchor anchor => "repeated anchor " ++ Text.quoted anchor
  | .wrongKind tag => "a node of another kind has the tag " ++ Text.quoted tag
  | .unknownTag tag => "no value has the tag " ++ Text.quoted tag
  | .collectionAsKey => "a collection cannot be a key"
  | .badMerge => "only mappings can be merged"
  | .badBinary => "malformed base 64"
  | .badPair => "an entry with one key is expected"
  | .unfinished => "the document does not end"

/-- An attempt on a document: a result, a problem of the document, or a fault. -/
abbrev Attempt (α : Type) := Except (Failure Problem) α

/-- The attempt that ends in a problem. -/
def refuse {α : Type} (p : Problem) : Attempt α := .error (.declared p)

end Verdict.Yaml
