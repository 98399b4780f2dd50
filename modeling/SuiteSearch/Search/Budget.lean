import SuiteSearch.Duration
import SuiteSearch.Scalar

/-!
# Budgets

A search ends when its evaluations or its time are used up. The progress of a search is the greater
of the two parts used; without a limit there is none.
-/

namespace SuiteSearch

structure Budget where
  maxEvaluations : Option Nat
  maxTime : Option Duration
  evaluations : Nat
  deriving DecidableEq

namespace Budget

/-- A budget of evaluations only. -/
def ofEvaluations (n : Nat) : Budget := ⟨some n, none, 0⟩

def countEvaluation (b : Budget) : Budget := { b with evaluations := b.evaluations + 1 }

/-- A duration in seconds. -/
def inSeconds (d : Duration) : Float :=
  Scalar.count d.seconds + Scalar.count d.subsecond / 1000000000

/-- The part of the evaluations that is used. -/
def evaluationsUsed (b : Budget) : Float :=
  match b.maxEvaluations with
  | none => 0
  | some 0 => 1
  | some n => Scalar.count b.evaluations / Scalar.count n

/-- The part of the time that is used. -/
def timeUsed (b : Budget) (elapsed : Duration) : Float :=
  match b.maxTime with
  | none => 0
  | some d => if d.nanos = 0 then 1 else inSeconds elapsed / inSeconds d

/-- The part of the budget that is used. -/
def progress (b : Budget) (elapsed : Duration) : Float :=
  Scalar.clampUnit (Scalar.larger b.evaluationsUsed (b.timeUsed elapsed))

/-- Whether the evaluations or the time are used up, as far as the progress tells. -/
def isFinished (b : Budget) (elapsed : Duration) : Bool := (1 : Float) ≤ b.progress elapsed

end Budget

end SuiteSearch
