import Std.Time.Zoned
import Verdict.Command.Need
import Verdict.Config.Disk
import Verdict.Yaml.Document
/-!
# The command line

Gathers the surroundings of a run, runs it, and passes on its texts and its exit code.
-/

open Verdict Verdict.Command

/-- What the disk holds at a location. A directory can be opened, so the failure to read it names no
file; where there is nothing, the failure to open it does. -/
def contentAt (l : Location) : IO Content := do
  try
    return .file (← IO.FS.readBinFile l.text)
  catch e =>
    match e with
    | .inappropriateType none _ _ => return .directory
    | .noFileOrDirectory .. | .noSuchThing .. | .inappropriateType .. => return .nothing
    | .permissionDenied .. => return .unopenable (.outside "PermissionError" e.toString)
    | _ => return .failing (.outside "OSError" e.toString)

/-- Today's date on the local calendar. -/
def localDate : IO Date := do
  let now ← Std.Time.PlainDate.now
  match Date.make now.year.toInt.toNat now.month.val.toNat now.day.val.toNat with
  | .ok d => return d
  | .error f => throw (IO.userError f.message)

/-- The settings of the process with the given names. -/
def settingsOf (names : List String) : IO (Table String) := do
  let mut table := Table.empty
  for name in names do
    if let some value ← IO.getEnv name then
      table := table.insert name value
  return table

/-- The surroundings of a request. -/
def gather (request : Request) : IO Surroundings := do
  let directory := Location.top.resolve (toString (← IO.currentDir))
  let mut found := []
  for l in request.locations directory.seek do
    found := (l, ← contentAt l) :: found
  let contents := found
  let disk : Disk :=
    ⟨directory.seek, fun l => ((contents.find? fun e => e.1 = l).map Prod.snd).getD .nothing⟩
  let bare : Surroundings :=
    ⟨disk.resolve, disk.storage Yaml.reader, Yaml.reader, .empty, ← localDate, fun _ => false⟩
  let rules := request.rules bare
  let bytes ← IO.getRandomBytes (2 * rules.length).toUSize
  return { bare with
    environment := .utf8 (← settingsOf (rules.flatMap settingNames))
    bits := fun n => (bytes.toList.getD n 0) % 2 = 1 }

/-- Evaluates rules and checks configurations, as the arguments ask. -/
def main (args : List String) : IO UInt32 := do
  let ended : Except Fault Completion ←
    match readRequest args with
    | .error n => pure (.ok n.completion)
    | .ok request => do pure ((← gather request).runRequest request)
  match ended with
  | .ok c =>
    IO.print c.output
    IO.eprint c.errors
    return c.exit.toUInt32
  | .error f =>
    IO.eprintln f.message
    return 1
