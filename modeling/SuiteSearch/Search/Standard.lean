import SuiteSearch.Fitness.MethodCoverage
import SuiteSearch.Generation.Growth
import SuiteSearch.Mutation.Step
import SuiteSearch.Search.Run

/-!
# The standard search

The parts with which a cluster is searched for method coverage: new programs grow by guided
insertion, candidates are mutated with random insertions, and the archive has a population for every
goal.
-/

namespace SuiteSearch

variable {ω : Type} [WordSource ω]

/-- An inserter with the standard depth and reuse. -/
def Inserter.standard (c : Cluster) (selector : Selector ω) : Inserter ω :=
  ⟨c, selector, Inserter.defaultDepth, Inserter.defaultReuse⟩

/-- Growth within the bounds of a search. -/
def Growth.standard (s : SearchSettings) (ins : Inserter ω) : Growth ω :=
  ⟨ins.insertAfter, s.maxLength, s.maxAttempts⟩

/-- Mutation within the bounds of a search. -/
def Mutator.standard (c : Cluster) (s : SearchSettings) (ins : Inserter ω) : Mutator ω :=
  ⟨c, ins.insertAfter, s.maxLength⟩

/-- The search of a cluster; `guided` picks the values in programs that are generated later on. -/
def SearchPlan.standard (c : Cluster) (s : SearchSettings) (guided : Selector ω) :
    SearchPlan ω where
  settings := s
  goals := MethodCoverage.goals c
  evaluate p := return .ok (MethodCoverage.evaluate c p)
  seed := (Growth.standard s (.standard c (.random c))).chromosome
  generate := (Growth.standard s (.standard c guided)).chromosome
  mutate := (Mutator.standard c s (.standard c (.random c))).mutate
  clock := .stopped

/-- The archive of a search. -/
def Archive.standard (c : Cluster) (s : SearchSettings) : Archive :=
  .ofGoals (MethodCoverage.goals c).ids s.retention

end SuiteSearch
