import SuiteSearch.Search.Basic

/-!
# Running a search

A run makes the first candidate, iterates until the budget is used or every goal is reached, and
collects the programs of the archive into a suite. They are evaluated once more, as far as the time
for it allows.

The loops run in any monad that has the state of a search and reads the clock: `runBy read` is the
search whose time is told by `read`, and `run` the one by the clock of the plan.
-/

namespace SuiteSearch.SearchPlan

variable {ω : Type} {m : Type → Type} [Monad m] [MonadState (Search ω) m]

/-! ## The final pass -/

/-- Brings the best values down to those of an evaluation. -/
def lower (best : Heuristics) (e : Evaluation) : Heuristics :=
  best.map fun (g, x) => (g, Scalar.smaller x (e.value g))

/-- Evaluates a program once more; a failure leaves the best values as they are. -/
def remeasure (plan : SearchPlan ω) (p : Program) (best : Heuristics) (s : Search ω) :
    Heuristics × Search ω :=
  let (measured, w) := plan.evaluate p s.world
  let s := { s with world := w }
  match measured with
  | .ok e => (lower best e, s)
  | .error e =>
    (best, s.add (.logged ⟨.warn, s!"re-evaluating a suite program failed: {e.message}"⟩))

/-- Evaluates programs once more; gives the best values and whether the time was enough. -/
def reevaluateBy (plan : SearchPlan ω) (read : Moment → m Duration) (deadline : Duration) :
    List (Program × Nat) → Heuristics → m (Heuristics × Bool)
  | [], best => return (best, true)
  | (p, i) :: rest, best => do
    let now ← read (.remeasuring i)
    if deadline.nanos ≤ now.nanos then
      modify (·.add
        (.logged ⟨.warn, "finalization deadline reached, suite coverage not recomputed"⟩))
      return (best, false)
    let best ← modifyGet (plan.remeasure p best)
    plan.reevaluateBy read deadline rest best

/-- The covering programs of the archive. -/
def collect (s : Search ω) : List Program × Search ω :=
  let (programs, archive) := s.archive.solutions
  (programs, { s with archive := archive })

/-- Collects the programs of the archive. -/
def finalizeBy (plan : SearchPlan ω) (read : Moment → m Duration) : m Suite := do
  let s ← get
  if s.archive.isEmpty then
    modify (·.add (.logged ⟨.info, "archive is empty, reporting an empty suite"⟩))
    return .empty plan.goals
  let began ← read .closing
  let deadline := began + plan.settings.finalizeTimeout
  let programs ← modifyGet collect
  let s ← get
  let best := plan.goals.ids.map fun g => (g, s.archive.bestValue g)
  let (best, complete) ← plan.reevaluateBy read deadline programs.zipIdx best
  return { Suite.scored plan.goals programs best with complete := complete }

/-- The final pass by the clock of the plan. -/
def finalize (plan : SearchPlan ω) (s : Search ω) : Suite × Search ω :=
  (plan.finalizeBy plan.clock.read : StateM (Search ω) Suite) s

/-- Closes a search that has stopped. -/
def finishBy (plan : SearchPlan ω) (read : Moment → m Duration) : m Suite := do
  modify fun s => s.add (.logged ⟨.info,
    s!"search stopped after {s.iteration} iterations and {s.budget.evaluations} evaluations"⟩)
  let suite ← plan.finalizeBy read
  let elapsed ← read .reporting
  let s ← get
  let suite := s.stamp elapsed suite
  modify (·.add (.finished suite))
  return suite

/-! ## The loop -/

/-- Whether the goals are all reached. -/
def allCovered (plan : SearchPlan ω) (s : Search ω) : Bool :=
  plan.goals.size ≠ 0 && plan.goals.size ≤ s.archive.coveredGoals.length

/-- Whether there is nothing left to do. -/
def isDone (plan : SearchPlan ω) (elapsed : Duration) (s : Search ω) : Bool :=
  s.budget.isFinished elapsed || plan.allCovered s

/-- The greatest number of iterations; they are counted in 64 bits. -/
def maxIterations : Nat := UInt64.size

variable [WordSource ω] [MonadLiftT (SearchStep ω) m]

/-- Iterates until there is nothing left to do. -/
def iterateBy (plan : SearchPlan ω) (read : Moment → m Duration) : Nat → m Unit
  | 0 => return ()
  | left + 1 => do
    let elapsed ← read .checking
    let s ← get
    if plan.isDone elapsed s then return ()
    let stats ← plan.evolveBy read
    modify (·.add (.iterated stats))
    plan.iterateBy read left

/-- Announces the search and makes the first candidate. -/
def start (plan : SearchPlan ω) : SearchStep ω Unit := do
  modify (·.add (.started plan.goals.size))
  plan.makeFirst

/-- A whole search. -/
def runBy (plan : SearchPlan ω) (read : Moment → m Duration) : m Suite := do
  plan.start
  plan.iterateBy read maxIterations
  plan.finishBy read

/-! ## By the clock of the plan -/

def iterate (plan : SearchPlan ω) (left : Nat) : SearchStep ω Unit :=
  plan.iterateBy plan.clock.read left

def finish (plan : SearchPlan ω) : SearchStep ω Suite := plan.finishBy plan.clock.read

/-- A whole search by the clock of the plan. -/
def run (plan : SearchPlan ω) : SearchStep ω Suite := plan.runBy plan.clock.read

end SuiteSearch.SearchPlan
