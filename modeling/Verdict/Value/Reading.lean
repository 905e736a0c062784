import Verdict.Value.Basic
/-!
# Readers of documents

Configurations and the values of assignments are documents, in a format that a reader outside this
library knows. A reader finds the value of a text, or refuses the text with words of its own, or
fails in some other way. Nothing is taken for granted about it: what is said of configurations is
said for every reader.
-/

namespace Verdict

/-- What a reader makes of a text: its value, the words with which the text is refused, or a fault.
-/
abbrev Reading := Except (Failure String) Value

/-- A reader of documents. -/
abbrev Reader := String → Reading

end Verdict
