import Verdict.Config.Section
import Verdict.Value.Part
import Verdict.Value.Reading
/-!
# Loading a configuration

A configuration is read from the file `criteria.yaml` of a root directory, or from a file that is
named. The first defect refuses it: first keys that no configuration has, then the date, the context
data, the settings and the rules. A missing file is an empty configuration unless it was named.

Files are what a storage says of them, and a storage may fail: at the look at a location, or at
reading a file that is there.
-/

namespace Verdict

/-- What stands at a location. -/
inductive Entry where
  /-- Nothing. -/
  | missing
  /-- A directory. -/
  | directory
  /-- A file, by what reading its document comes to. -/
  | file (document : Reading)
  /-- Something that fails as soon as it is looked at. -/
  | failing (fault : Fault)

/-- Whether a directory stands there. -/
def Entry.isDirectory : Entry → Bool
  | .directory => true
  | _ => false

/-- What stands where. -/
abbrev Storage := Location → Entry

/-- The name of the configuration file of a root directory. -/
def configName : String := "criteria.yaml"

/-- The location of the configuration file: the one that is named, or that of the root directory. -/
def configLocation (root : Location) (named : Option Location) : Location :=
  named.getD (root.child configName)

/-- The texts of the keys of a mapping. -/
def keyTexts : List (Value × Value) → Except Fault (List String)
  | [] => .ok []
  | (k, _) :: es => do return (← k.toText) :: (← keyTexts es)

/-- The texts of keys that no configuration has, in order. -/
def unknownKeys (keys : List String) : List String :=
  (sortTexts keys).filter fun k => !configKeys.contains k

/-- The value of a section of a document, nothing if it is missing. The one collection that encloses
a section is the document itself, and a section that is it has its entries. The values in the
section are as they stand in the document, which is enough to say of what kind they are. -/
def sectionValue (entries : List (Value × Value)) (name : String) : Value :=
  match Value.entry? name entries with
  | none => .null
  | some (.enclosing _ _) => .map entries
  | some v => v

/-- The value of a section of a document, seen from itself, nothing if it is missing. -/
def sectionTaken (entries : List (Value × Value)) (name : String) : Value :=
  ((Value.entry? name entries).map (Value.taken name entries)).getD .null

/-- The configuration that the entries of a document make. -/
def Config.ofEntries (entries : List (Value × Value)) : Except (Failure ConfigError) Config := do
  let unknown := (unknownKeys (← orFault (keyTexts entries))).eraseDups
  if !unknown.isEmpty then .error (.declared (.unknownKeys unknown))
  else
    -- the first of these that is refused is the one that is reported
    let today ← readDate "today" (sectionTaken entries "today")
    let context ← orDeclared (readSection "context" (sectionTaken entries "context"))
    let env ← readSettings (sectionValue entries "env")
    let rules ← orDeclared (readRules (sectionValue entries "rules"))
    return ⟨today, .ofList (Value.eachTaken context), env, rules⟩

/-- The configuration that a document is. -/
def Config.ofDocument (path : String) (document : Reading) :
    Except (Failure ConfigError) Config :=
  match document with
  | .error (.declared words) => .error (.declared (.notYaml path words))
  | .error (.fault f) => .error (.fault f)
  | .ok .null => Config.ofEntries []
  | .ok (.map entries) => Config.ofEntries entries
  | .ok _ => .error (.declared (.notMapping path))

/-- The outcome of loading the configuration of a root directory, or the one that is named. -/
def loadConfig (storage : Storage) (root : Location) (named : Option Location) :
    Outcome ConfigError Config :=
  let path := configLocation root named
  match storage path with
  | .missing =>
    if named.isSome then ⟨.error (.declared (.notFound path.text)), [], 0⟩ else .pure .default
  | .directory => ⟨.error (.fault (.directory path.text)), [], 0⟩
  | .failing f => ⟨.error (.fault f), [], 0⟩
  | .file document =>
    match Config.ofDocument path.text document with
    | .ok c => ⟨.ok c, [.loaded path.text c.rules.size], 0⟩
    | .error e => ⟨.error e, [], 0⟩

end Verdict
