import Verdict.Text.Fields
/-!
# Locations

A location is the absolute path of a file or a directory, as the names on the way from the root. A
path text is resolved against a location: it starts at the root if it begins with a slash, empty
names and `.` stay where they are, and `..` goes one name up, the root being its own parent.
-/

namespace Verdict

/-- An absolute path. -/
structure Location where
  /-- The names from the root on. -/
  names : List String
  deriving DecidableEq, Repr

namespace Location

/-- The root of all paths. -/
def top : Location := ⟨[]⟩

/-- The text of a location. -/
def text (l : Location) : String := "/" ++ "/".intercalate l.names

/-- The location of a name in a directory. -/
def child (l : Location) (name : String) : Location := ⟨l.names ++ [name]⟩

/-- The location that a name of a path leads to. -/
def step (l : Location) (name : String) : Location :=
  if name = "" ∨ name = "." then l
  else if name = ".." then ⟨l.names.dropLast⟩
  else l.child name

/-- The location that a path text leads to from a location. -/
def resolve (l : Location) (path : String) : Location :=
  ((Text.fields '/' path.toList).map String.ofList).foldl step
    (if path.toList.head? = some '/' then top else l)

/-- Resolving paths against a location where no path fails. -/
def seek {ε : Type} (l : Location) (path : String) : Except ε Location := .ok (l.resolve path)

end Location

end Verdict
