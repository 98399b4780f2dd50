import SuiteSearch.Fitness.Evaluation

/-!
# Chromosomes

An individual of the search: a program with the number of its mutations and evaluations and what the
last evaluation measured.
-/

namespace SuiteSearch

structure Chromosome where
  program : Program
  mutations : Nat
  evaluations : Nat
  heuristics : Heuristics

namespace Chromosome

/-- An individual that nothing was done with. -/
def ofProgram (p : Program) : Chromosome := ⟨p, 0, 0, []⟩

def length (c : Chromosome) : Nat := c.program.length

def isEmpty (c : Chromosome) : Bool := c.program.isEmpty

/-- A copy as it is. -/
def copy (c : Chromosome) : Chromosome := { c with program := c.program.copy }

/-- A copy that nothing was done with. -/
def freshCopy (c : Chromosome) : Chromosome := ⟨c.program.copy, 0, 0, c.heuristics⟩

def countMutation (c : Chromosome) : Chromosome := { c with mutations := c.mutations + 1 }

/-- The program with what an evaluation showed. Violations add up. -/
def annotate (p : Program) (e : Evaluation) : Program :=
  { p with
    covered := Sorted.ofList Sorted.below e.covered
    violations := Sorted.insertAll Violation.precedes e.violations p.violations
    environment := e.environment
    failing := e.failing }

/-- Counts an evaluation and keeps what it showed. -/
def recordEvaluation (c : Chromosome) (e : Evaluation) : Chromosome :=
  ⟨annotate c.program e, c.mutations, c.evaluations + 1, e.heuristics⟩

/-- The value that the last evaluation gave to a goal. -/
def value (c : Chromosome) (g : GoalId) : Float := Heuristics.value c.heuristics g

end Chromosome

end SuiteSearch
