import SuiteSearch.Program.Basic
import SuiteSearch.Scalar

/-!
# Evaluations

What running a program showed: for every goal a heuristic value from 0 (reached) to 1 (no progress),
and what else was observed. A goal without a value has made no progress.
-/

namespace SuiteSearch

/-- The value of a goal that nothing is known about. -/
def noProgress : Float := 1

/-- The values of goals, in the order of the goals. -/
abbrev Heuristics := List (GoalId × Float)

namespace Heuristics

/-- Sets the value of a goal. -/
def put (g : GoalId) (x : Float) : Heuristics → Heuristics
  | [] => [(g, x)]
  | (k, y) :: rest =>
    if g < k then (g, x) :: (k, y) :: rest
    else if k < g then (k, y) :: put g x rest
    else (g, x) :: rest

/-- The value of a goal. -/
def value (h : Heuristics) (g : GoalId) : Float := (h.lookup g).getD noProgress

/-- The goals that are reached. -/
def reached (h : Heuristics) : List GoalId := (h.filter fun (_, x) => x ≤ 0).map (·.1)

end Heuristics

structure Evaluation where
  heuristics : Heuristics
  violations : List Violation
  environment : Environment
  failing : Bool

namespace Evaluation

def empty : Evaluation := ⟨[], [], Environment.empty, false⟩

/-- Records the value of a goal, brought into range. -/
def record (e : Evaluation) (g : GoalId) (x : Float) : Evaluation :=
  { e with heuristics := Heuristics.put g (Scalar.clampUnit x) e.heuristics }

def value (e : Evaluation) (g : GoalId) : Float := Heuristics.value e.heuristics g

def isCovered (e : Evaluation) (g : GoalId) : Bool := e.value g ≤ 0

def covered (e : Evaluation) : List GoalId := Heuristics.reached e.heuristics

end Evaluation

end SuiteSearch
