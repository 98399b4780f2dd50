import SuiteSearch.Duration
import SuiteSearch.Fitness.Evaluation
import SuiteSearch.Goal.Basic

/-!
# Suites

The outcome of a search: the programs that together reach what was reached, and a score for every
criterion that has goals. A score says how far the goals are reached: their number, the share of
them that is reached, and the mean of the best values.
-/

namespace SuiteSearch

/-! ## Scores -/

structure Score where
  covered : Nat
  total : Nat
  coverage : Float
  fitness : Float

namespace Score

/-- The score of goals that nothing was done for. -/
def worst (total : Nat) : Score := ⟨0, total, 0, noProgress⟩

/-- The sum from the left; the empty sum is the negative zero, which changes no other number. -/
def sum (xs : List Float) : Float := xs.foldl (· + ·) (-0.0)

/-- The score of goals with the given best values. -/
def ofValues (xs : List Float) : Score :=
  if xs.isEmpty then worst 0
  else
    let covered := (xs.filter (· ≤ 0)).length
    ⟨covered, xs.length, Scalar.count covered / Scalar.count xs.length,
      sum xs / Scalar.count xs.length⟩

end Score

/-! ## Suites -/

structure Suite where
  programs : List Program
  /-- In the order of the criteria. -/
  scores : List (Criterion × Score)
  iterations : Nat
  /-- Evaluations used by the search; those of the final pass are not counted. -/
  evaluations : Nat
  elapsed : Duration
  /-- Whether the final pass got through all programs in time. -/
  complete : Bool

namespace Suite

/-- The outcome of a search that found nothing. -/
def empty (goals : GoalSet) : Suite :=
  ⟨[], goals.criteria.map fun c => (c, .worst (goals.ofCriterion c).length), 0, 0, ⟨0⟩, true⟩

/-- The outcome with the best value of every goal. -/
def scored (goals : GoalSet) (programs : List Program) (best : Heuristics) : Suite :=
  let scores := goals.criteria.map fun c =>
    (c, Score.ofValues ((goals.ofCriterion c).map fun g => Heuristics.value best g.id))
  ⟨programs, scores, 0, 0, ⟨0⟩, true⟩

/-- The number of goals reached. -/
def covered (s : Suite) : Nat := (s.scores.map (·.2.covered)).foldr (· + ·) 0

def total (s : Suite) : Nat := (s.scores.map (·.2.total)).foldr (· + ·) 0

/-- The share of goals reached. -/
def coverage (s : Suite) : Float :=
  if s.total = 0 then 0 else Scalar.count s.covered / Scalar.count s.total

end Suite

end SuiteSearch
