import SuiteSearch.Decimal.Binary64
import SuiteSearch.Error
import SuiteSearch.Json.Decoder
import SuiteSearch.Json.Reader
import SuiteSearch.Json.Writer
import SuiteSearch.Suite.Basic

/-!
# Reports

The view of a suite that is shown to people and written to documents. Scores stand in the order of
the criteria's names.
-/

namespace SuiteSearch

open Json (Value required)

structure Report where
  tests : List String
  /-- In the order of the names. -/
  scores : List (String × Score)
  coverage : Float
  iterations : Nat
  evaluations : Nat
  elapsedMillis : Nat
  complete : Bool

namespace Report

/-- Puts a score at the place of its name, instead of one of the same name. -/
def putScore (name : String) (x : Score) : List (String × Score) → List (String × Score)
  | [] => [(name, x)]
  | (k, y) :: rest =>
    if name < k then (name, x) :: (k, y) :: rest
    else if k < name then (k, y) :: putScore name x rest
    else (name, x) :: rest

/-- Scores in the order of their names; the last one of a name stays. -/
def sortScores (scores : List (String × Score)) : List (String × Score) :=
  scores.foldl (fun l (name, x) => putScore name x l) []

def ofSuite (s : Suite) : Report where
  tests := s.programs.map Program.code
  scores := sortScores (s.scores.map fun (c, x) => (c.name, x))
  coverage := s.coverage
  iterations := s.iterations
  evaluations := s.evaluations
  elapsedMillis := min s.elapsed.millis (UInt64.size - 1)
  complete := s.complete

/-! ## Text -/

def headline (r : Report) : String :=
  s!"{r.tests.length} tests, coverage {Decimal.fixed 1 (r.coverage * 100)}%, " ++
    s!"{r.iterations} iterations, {r.evaluations} evaluations, {r.elapsedMillis} ms"
    ++ if r.complete then "\n" else " (finalization cut short)\n"

def scoreLine (name : String) (x : Score) : String :=
  s!"  {name}: {x.covered}/{x.total} covered, fitness {Decimal.fixed 3 x.fitness}\n"

/-- A program under its number, after a blank line. -/
def testText (i : Nat) (test : String) : String := s!"\n// test {i}\n{test}"

def render (r : Report) : String :=
  r.headline ++ String.join (r.scores.map fun (name, x) => scoreLine name x)
    ++ String.join (r.tests.zipIdx.map fun (test, i) => testText i test)

/-! ## Documents -/

def scoreValue (x : Score) : Value :=
  .record [("covered", .ofNat x.covered), ("total", .ofNat x.total),
    ("coverage", .ofFloat x.coverage), ("fitness", .ofFloat x.fitness)]

def toValue (r : Report) : Value :=
  .record [("tests", .array (r.tests.map .ofString)),
    ("scores", .record (r.scores.map fun (name, x) => (name, scoreValue x))),
    ("coverage", .ofFloat r.coverage), ("iterations", .ofNat r.iterations),
    ("evaluations", .ofNat r.evaluations), ("elapsed_ms", .ofNat r.elapsedMillis),
    ("complete", .bool r.complete)]

/-- The document of a report. -/
def document (r : Report) : String := r.toValue.pretty

def scoreOfValue? (v : Value) : Option Score :=
  match v.fields? ["covered", "total", "coverage", "fitness"] with
  | some [covered, total, coverage, fitness] => do
    return ⟨← required Value.word? covered, ← required Value.word? total,
      ← required Value.float? coverage, ← required Value.float? fitness⟩
  | _ => none

def ofValue? (v : Value) : Option Report :=
  match v.fields? ["tests", "scores", "coverage", "iterations", "evaluations", "elapsed_ms",
      "complete"] with
  | some [tests, scores, coverage, iterations, evaluations, elapsed, complete] => do
    return ⟨← required (Value.list? Value.string?) tests,
      sortScores (← required (Value.pairs? scoreOfValue?) scores),
      ← required Value.float? coverage, ← required Value.word? iterations,
      ← required Value.word? evaluations, ← required Value.word? elapsed,
      ← required Value.bool? complete⟩
  | _ => none

/-- The report of a document. -/
def ofDocument? (text : String) : Except Error Report :=
  match (Value.parse? text).bind ofValue? with
  | some r => .ok r
  | none => .error .serialization

end Report

end SuiteSearch
