import SuiteSearch.Scalar
import SuiteSearch.Search.Settings

/-!
# Annealing

How likely candidates are generated and how many are kept falls in a straight line from the first
values to `(0, 1)` at the onset, and stays there. The number kept is rounded up.

    anneal p n onset u = (p · (1 - u / onset), ⌈n · (1 - u / onset)⌉)     for u < onset
-/

namespace SuiteSearch

/-- How candidates are chosen at some point of a search. -/
structure SamplingPolicy (κ : Type) where
  /-- How likely a candidate is generated. -/
  probability : κ
  /-- How many candidates are kept for an open goal. -/
  retention : Nat
  deriving DecidableEq

namespace SamplingPolicy

variable {κ : Type} [Scalar κ]

/-- The policy at the start. -/
def initial (probability : κ) (retention : Nat) : SamplingPolicy κ := ⟨probability, max retention 1⟩

/-- Whether nothing but the archive is used. -/
def isExploiting (p : SamplingPolicy κ) : Bool :=
  Scalar.le p.probability (Scalar.ofNat 0) && p.retention == 1

/-- The policy once a part `progress` of the budget is used. -/
def anneal (probability : κ) (retention : Nat) (onset progress : κ) : SamplingPolicy κ :=
  let progress := Scalar.clampUnit progress
  if Scalar.le onset progress then ⟨Scalar.ofNat 0, 1⟩
  else
    let remaining := Scalar.sub (Scalar.ofNat 1) (Scalar.div progress onset)
    ⟨Scalar.positive (Scalar.mul probability remaining),
      max (Scalar.ceil (Scalar.mul (Scalar.ofNat retention) remaining)) 1⟩

end SamplingPolicy

namespace SearchSettings

def initialPolicy (s : SearchSettings) : SamplingPolicy Float := .initial s.generation s.retention

def policyAt (s : SearchSettings) (progress : Float) : SamplingPolicy Float :=
  .anneal s.generation s.retention s.onset progress

end SearchSettings

end SuiteSearch
