import Verdict.Value.Reading
import Verdict.Yaml.Content
import Verdict.Yaml.TokenRow
/-!
# Documents

A text is read as one document: its characters make tokens, the tokens a node, and the node a value.
A text without a document has no value, which counts as nothing.

This is one reader of documents among others, the one that the program runs with. All characters
make tokens before the first node is made, so of a text that is amiss in two ways another reader may
name the other one; the words for what is amiss are this reader's own, and how deep a document may
be nested has no limit here.
-/

namespace Verdict.Yaml

/-- The value of the document that characters write. -/
def documentOfChars (cs : List Char) : Attempt Value := do
  let ts ← tokens cs
  match ← orDeclared (Node.ofTokens? ts) with
  | none => return .null
  | some n => n.value

/-- The value of the document that a text writes. -/
def document (s : String) : Attempt Value := documentOfChars s.toList

/-- The reader of documents of this library. Its words for a problem are its own. -/
def reader : Verdict.Reader := fun s => (document s).mapError (Failure.map Problem.message)

end Verdict.Yaml
