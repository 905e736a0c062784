import Verdict.Text.Quoted
/-!
# Halves of surrogate pairs

The code points from U+D800 to U+DFFF are no characters, but an escape in a document can name one.
So that nothing else is mistaken for it, each has a stand-in among the private characters, which a
text may hold. UTF-8 has no bytes for it: a text that holds one cannot be written, unless it is one
of those that stand for a stray byte, from U+DC80 to U+DCFF.
-/

namespace Verdict.Text

/-- Whether a code point is half of a surrogate pair. -/
def isSurrogate (n : Nat) : Bool := 0xD800 ≤ n && n < 0xE000

/-- The character that stands for half of a surrogate pair. -/
def standIn (n : Nat) : Char := Char.ofNat (0x100000 + n)

/-- Whether a character stands for half of a surrogate pair. -/
def isStandIn (c : Char) : Bool := isSurrogate (c.toNat - 0x100000)

/-- Whether a character has bytes, be it a stray one. -/
def hasBytes (c : Char) : Bool :=
  !isStandIn c || (0x10DC80 ≤ c.toNat && c.toNat < 0x10DD00)

/-- Why a text cannot be written, if it cannot: the first halves of surrogate pairs that stand in a
row, from the first one without bytes on. -/
def unwritable? (s : String) : Option String :=
  let cs := s.toList
  let start := (cs.takeWhile hasBytes).length
  match cs.drop start with
  | [] => none
  | c :: rest =>
    let others := (rest.takeWhile isStandIn).length
    let place :=
      if others = 0 then
        "character '\\u" ++ String.ofList (hexDigits 4 (c.toNat - 0x100000)) ++ "' in position " ++
          toString start
      else "characters in position " ++ toString start ++ "-" ++ toString (start + others)
    some ("'utf-8' codec can't encode " ++ place ++ ": surrogates not allowed")

end Verdict.Text
