import Verdict.Config.Diagnose
/-!
# Disks

A disk leads paths to locations and holds files by their bytes. What a configuration sees of a file
is what a reader makes of the text that the bytes write, with the breaks of all systems as line
feeds. A disk may fail at each step: a path may lead nowhere, a location may not let itself be
looked at, and a file may not be opened.
-/

namespace Verdict

/-- What a disk holds at a location. -/
inductive Content where
  /-- Nothing. -/
  | nothing
  /-- A directory. -/
  | directory
  /-- A file, by its bytes. -/
  | file (bytes : ByteArray)
  /-- A file that cannot be opened. -/
  | unopenable (fault : Fault)
  /-- Something that fails as soon as it is looked at. -/
  | failing (fault : Fault)

/-- The characters with every carriage return, alone or in front of a line feed, made a line feed.
-/
def unifyBreaks : List Char → List Char
  | [] => []
  | '\r' :: '\n' :: cs => '\n' :: unifyBreaks cs
  | '\r' :: cs => '\n' :: unifyBreaks cs
  | c :: cs => c :: unifyBreaks cs

/-- The text that bytes write in UTF-8, if they do. -/
def textOfBytes? (bytes : ByteArray) : Option String :=
  (String.fromUTF8? bytes).map fun s => String.ofList (unifyBreaks s.toList)

/-- What a reader makes of the bytes of a file. -/
def Reader.ofBytes (reader : Reader) (bytes : ByteArray) : Reading :=
  match textOfBytes? bytes with
  | none => .error (.fault .undecodable)
  | some text => reader text

/-- What stands where a disk holds something. -/
def Content.entry (reader : Reader) : Content → Entry
  | .nothing => .missing
  | .directory => .directory
  | .file bytes => .file (reader.ofBytes bytes)
  | .unopenable f => .file (.error (.fault f))
  | .failing f => .failing f

/-- A disk. -/
structure Disk where
  /-- The location that a path leads to. -/
  resolve : String → Except Fault Location
  /-- What is held at a location. -/
  content : Location → Content

namespace Disk

/-- What stands where on a disk whose files are read by a reader. -/
def storage (disk : Disk) (reader : Reader) : Storage := fun l => (disk.content l).entry reader

/-- The diagnostics of the configuration that stands at a path in a root directory, or of the one at
the path that is named. -/
def diagnose (disk : Disk) (reader : Reader) (root : String) (named : Option String)
    (expected : Bool) : Except Fault (List Diagnostic) := do
  let root ← disk.resolve root
  let named ← named.mapM disk.resolve
  Verdict.diagnose (disk.storage reader) root named expected

end Disk

end Verdict
