import SuiteSearch.Decimal.Binary64
import SuiteSearch.Search.Sampling
import SuiteSearch.Suite.Basic

/-!
# Events of a search

What a search reports while it runs, and the lines in which it is logged.
-/

namespace SuiteSearch

/-- The state after an iteration. -/
structure IterationStats where
  /-- The number of iterations, this one included. -/
  iteration : Nat
  progress : Float
  probability : Float
  retention : Nat
  covered : Nat
  goals : Nat
  /-- The length of the candidate after its mutation. -/
  length : Nat
  /-- Where the candidate came from, if it was new. -/
  resampled : Option SampleSource
  /-- Whether the mutation changed the candidate. -/
  mutated : Bool

inductive SearchEvent
  | started (goals : Nat)
  | iterated (stats : IterationStats)
  | finished (suite : Suite)
  /-- The search itself has something to say. -/
  | logged (line : LogLine)

namespace SearchEvent

def iterationText (s : IterationStats) : String :=
  s!"iteration {s.iteration}: {s.covered}/{s.goals} goals covered, " ++
    s!"progress {Decimal.fixed 2 s.progress}, pr {Decimal.fixed 3 s.probability}, n {s.retention}"

def finishedText (s : Suite) : String :=
  s!"search finished: {s.programs.length} tests, {s.covered}/{s.total} goals covered"

/-- The line of an event when every `every`-th iteration is logged. -/
def summaryLine? (every : Nat) : SearchEvent → Option LogLine
  | started goals => some ⟨.info, s!"searching for {goals} goals"⟩
  | iterated stats =>
    if stats.iteration % max every 1 = 0 then some ⟨.info, iterationText stats⟩ else none
  | finished suite => some ⟨.info, finishedText suite⟩
  | logged line => some line

end SearchEvent

end SuiteSearch
