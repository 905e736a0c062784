import Verdict.Command.Run
/-!
# What a run needs of its surroundings

A run looks at the root directory and at one file, at the environment settings that its rules name,
and at no more random bits than one for each clause. So its surroundings can be gathered before it
starts.
-/

namespace Verdict.Command

/-- The setting that a clause asks for. -/
def Clause.setting? (c : Clause) : Option String :=
  if c.name = Predicate.env.name then c.args.head? else none

/-- The settings that a rule asks for. -/
def settingNames (rule : String) : List String :=
  (Expression.split rule).operands.filterMap fun text => Clause.setting? (Clause.parse text)

namespace Request

/-- The locations that a run looks at. -/
def locations (r : Request) (resolve : String → Except Fault Location) : List Location :=
  match r.place.site resolve with
  | .ok ⟨root, .ok named⟩ => [root, configLocation root named]
  | .ok ⟨root, .error _⟩ => [root]
  | .error _ => []

/-- The rules that a run may evaluate. -/
def rules (r : Request) (s : Surroundings) : List String :=
  match r with
  | .eval _ rule _ _ _ _ => [rule]
  | .check place _ _ _ =>
    match (place.site s.resolve).map fun site => (s.load site).result with
    | .ok (.ok c) => c.rules.values
    | _ => []
  | .validate _ => []

end Request

end Verdict.Command
