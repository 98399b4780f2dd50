import SuiteSearch.Chromosome
import SuiteSearch.Exchange.Statement
import SuiteSearch.Fitness.Evaluation

/-!
# Evaluations and candidates as JSON
-/

namespace SuiteSearch.Exchange

open Json (Value)

/-! ## Reading -/

def asViolation (v : Value) : Reading Violation :=
  return ⟨← text v "contract", ← nat v "position", ← text v "detail"⟩

def asEnvironment (v : Value) : Reading Environment :=
  return .ofLists (← many v "files" asText) (← many v "network" asText)
    (← many v "properties" asText) (← flag v "clock") (← flag v "randomness")

/-- The values of goals, in the order in which they are recorded. -/
def asHeuristics (v : Value) : Reading (List (GoalId × Float)) := asList (asPair asNat asFloat) v

def asEvaluation (v : Value) : Reading Evaluation := do
  let fitness := (← maybe v "fitness" asHeuristics).getD []
  let e := fitness.foldl (fun e (g, x) => e.record g x) Evaluation.empty
  return { e with
    violations := ← many v "violations" asViolation
    environment := (← maybe v "env" asEnvironment).getD .empty
    failing := ← flag v "failing" }

/-! ## Writing -/

def ofViolation (v : Violation) : Value :=
  obj [("contract", str v.contract), ("position", num v.position), ("detail", str v.detail)]

def ofEnvironment (e : Environment) : Value :=
  obj [("files", arr str e.files), ("network", arr str e.network),
    ("properties", arr str e.properties),
    ("clock", .bool e.clock), ("randomness", .bool e.randomness), ("empty", .bool e.isEmpty)]

def evaluationFields (e : Evaluation) : List (String × Value) :=
  [("fitness", arr (fun (g, x) => .array [num g, ofFloat x]) e.heuristics),
    ("covered", arr num e.covered)]

def ofChromosome (c : Chromosome) : Value :=
  obj [("len", num c.length), ("empty", .bool c.isEmpty), ("mutations", num c.mutations),
    ("evaluations", num c.evaluations), ("covered", arr num c.program.covered),
    ("failing", .bool c.program.failing), ("unstable", .bool c.program.unstable),
    ("violations", arr ofViolation c.program.violations),
    ("env", ofEnvironment c.program.environment), ("code", str c.program.code)]

end SuiteSearch.Exchange
