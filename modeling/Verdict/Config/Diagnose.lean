import Verdict.Config.Load
import Verdict.Config.Suggestion
import Verdict.Report.Diagnostic
import Verdict.Rule.Lint
/-!
# Diagnosing a configuration

Where loading stops at the first defect of a configuration, a diagnosis lists all of them, and what
lint finds in its rules. Each defect is found for itself: what is wrong with one entry does not hide
or change what is said of another.
-/

namespace Verdict

/-- A finding in a configuration file: code, entry, words and hint. -/
structure Finding where
  /-- The code of the kind of defect. -/
  code : String
  /-- The entry, empty for the file as a whole. -/
  field : String
  /-- What is wrong. -/
  message : String
  /-- How it may be mended. -/
  hint : String
  deriving DecidableEq, Repr

/-- A finding as a diagnostic of a file. -/
def Finding.diagnostic (path : String) (f : Finding) : Diagnostic :=
  ⟨f.code, path, f.field, f.message, f.hint⟩

/-- The hint for a key that no configuration has. -/
def keyHint (key : String) : String :=
  match nearestKey? configKeys key with
  | some k => "did you mean " ++ Diagnostic.ticked k ++ "?"
  | none => ""

/-- The finding for a key that no configuration has. -/
def unknownKeyFinding (key : String) : Finding :=
  ⟨"CFG004", key, "unknown key " ++ Diagnostic.ticked key, keyHint key⟩

/-- The findings for the keys of a section that are no texts. -/
def keyFindings (name : String) : List (Value × Value) → Except Fault (List Finding)
  | [] => .ok []
  | (.text _, _) :: es => keyFindings name es
  | (k, _) :: es => do
    let shown ← k.toText
    return ⟨"CFG005", name ++ "." ++ shown, "invalid key type in " ++ Diagnostic.ticked name,
      "expected a string key"⟩ :: (← keyFindings name es)

/-- The findings for the kind of a section and for its keys. -/
def sectionFindings (entries : List (Value × Value)) (name : String) :
    Except Fault (List Finding) :=
  match sectionValue entries name with
  | .null => .ok []
  | .map es => keyFindings name es
  | _ =>
    .ok [⟨"CFG005", name, "invalid type for " ++ Diagnostic.ticked name, "expected a mapping"⟩]

/-- The findings for an entry of the settings. -/
def settingFindings : Value × Value → List Finding
  | (.text k, v) =>
    if v.isScalar then []
    else
      let field := "env." ++ k
      [⟨"CFG005", field, "invalid type for " ++ Diagnostic.ticked field, "expected a scalar value"⟩]
  | _ => []

/-- The findings for an entry of the rules. -/
def ruleFindings : Value × Value → List Finding
  | (.text k, v) =>
    let field := "rules." ++ k
    match v with
    | .text rule =>
      if Text.isBlankText rule then [notRule field]
      else (lint rule).map fun p => ⟨p.code, field, p.message, ""⟩
    | _ => [notRule field]
  | _ => []
where
  /-- The finding for a rule that is no text, or blank. -/
  notRule (field : String) : Finding :=
    ⟨"CFG005", field, "invalid type for " ++ Diagnostic.ticked field,
      "expected a non-empty expression string"⟩

/-- The entries of a section that is a mapping. -/
def sectionEntries (entries : List (Value × Value)) (name : String) : List (Value × Value) :=
  match sectionValue entries name with
  | .map es => es
  | _ => []

/-- The findings for the date. -/
def dateFindings (entries : List (Value × Value)) : Except Fault (List Finding) :=
  match readDate "today" (sectionTaken entries "today") with
  | .ok _ => .ok []
  | .error (.declared e) => .ok [⟨"CFG006", "today", e.message, ""⟩]
  | .error (.fault f) => .error f

/-- The findings for the entries of a document. -/
def entryFindings (entries : List (Value × Value)) : Except Fault (List Finding) := do
  let unknown := (unknownKeys (← keyTexts entries)).map unknownKeyFinding
  let context ← sectionFindings entries "context"
  let env ← sectionFindings entries "env"
  let rules ← sectionFindings entries "rules"
  let today ← dateFindings entries
  -- in the order of the passes, which a stable sort keeps where code, path and field are equal
  return unknown ++ context ++ env ++ rules ++
    (sectionEntries entries "env").flatMap settingFindings ++ today ++
    (sectionEntries entries "rules").flatMap ruleFindings

/-- The findings for a document. -/
def documentFindings (document : Reading) : Except Fault (List Finding) :=
  match document with
  | .error (.declared words) => .ok [⟨"CFG002", "", "invalid YAML: " ++ words, ""⟩]
  | .error (.fault f) => .error f
  | .ok .null => .ok []
  | .ok (.map entries) => entryFindings entries
  | .ok v => .ok [⟨"CFG003", "", "config must be a YAML mapping, got " ++ v.typeName, ""⟩]

/-- The diagnostics of the configuration of a root directory, or of the one that is named. A missing
file is a defect only if a file has to be there. -/
def diagnose (storage : Storage) (root : Location) (named : Option Location) (expected : Bool) :
    Except Fault (List Diagnostic) :=
  let path := configLocation root named
  match storage path with
  | .missing =>
    .ok (if expected then [⟨"CFG001", path.text, "", "config file not found: " ++ path.text, ""⟩]
      else [])
  | .directory => .error (.directory path.text)
  | .failing f => .error f
  | .file document =>
    (documentFindings document).map fun fs =>
      Diagnostic.sort (fs.map (Finding.diagnostic path.text))

/-- The diagnostics before rules are evaluated: those of the configuration, or that there is no root
directory. -/
def preflight (storage : Storage) (root : Location) (named : Option Location) :
    Except Fault (List Diagnostic) :=
  match storage root with
  | .directory => (diagnose storage root named named.isSome).map Diagnostic.sort
  | .failing f => .error f
  | _ =>
    .ok [⟨"CFG007", root.text, "", "root directory does not exist: " ++ root.text, ""⟩]

end Verdict
