import SuiteSearch.Exchange.Field
import SuiteSearch.Search.Event
import SuiteSearch.Suite.Report

/-!
# Outcomes of a search as JSON
-/

namespace SuiteSearch.Exchange

open Json (Value)

def ofScore (s : Score) : Value :=
  .array [num s.covered, num s.total, ofFloat s.coverage, ofFloat s.fitness]

def reportFields (r : Report) : List (String × Value) :=
  [("tests", arr str r.tests),
    ("scores", arr (fun (name, s) => .array [str name, ofScore s]) r.scores),
    ("coverage", ofFloat r.coverage), ("iterations", num r.iterations),
    ("evaluations", num r.evaluations), ("complete", .bool r.complete)]

/-- The two texts of a report. -/
def reportTexts (r : Report) : List (String × Value) :=
  [("display", str r.render), ("json", str r.document)]

def suiteFields (s : Suite) : List (String × Value) :=
  reportFields (.ofSuite s) ++ [("covered", num s.covered), ("total", num s.total)]

def ofStats (s : IterationStats) : Value :=
  .array [num s.iteration, ofFloat s.progress, ofFloat s.probability, num s.retention,
    num s.covered,
    num s.goals, num s.length, orNull (fun (x : SampleSource) => str x.name) s.resampled,
    .bool s.mutated]

end SuiteSearch.Exchange
