/-!
# Diagnostics

A diagnostic names a defect of a configuration by a stable code, says where it stands and what is
wrong, and may add a hint. Diagnostics are listed by code, file and field, and those that agree in
all three in the order in which they were found.
-/

namespace Verdict

/-- A defect of a configuration. -/
structure Diagnostic where
  /-- The code of the kind of defect. -/
  code : String
  /-- The file. -/
  path : String
  /-- The entry of the file, empty for the file as a whole. -/
  field : String
  /-- What is wrong. -/
  message : String
  /-- How it may be mended, if there is more to say. -/
  hint : String
  deriving DecidableEq, Repr

namespace Diagnostic

/-- A name as messages mark it, between grave accents. -/
def ticked (name : String) : String := "\x60" ++ name ++ "\x60"

/-- Where the defect stands: the file, and the entry behind a colon. -/
def location (d : Diagnostic) : String :=
  if d.field = "" then d.path else d.path ++ ":" ++ d.field

/-- The line of a diagnostic. -/
def line (d : Diagnostic) : String :=
  "[" ++ d.code ++ "] " ++ d.location ++ " " ++ d.message ++
    (if d.hint = "" then "" else " (" ++ d.hint ++ ")")

/-- Whether the first diagnostic may stand before the second: texts are compared by code point. -/
def le (d e : Diagnostic) : Bool :=
  (compare d.code e.code).then ((compare d.path e.path).then (compare d.field e.field)) |>.isLE

/-- The diagnostics in their order. -/
def sort (ds : List Diagnostic) : List Diagnostic := ds.mergeSort le

/-- The lines of diagnostics in their order. -/
def format (ds : List Diagnostic) : String := "\n".intercalate ((sort ds).map line)

end Diagnostic

end Verdict
