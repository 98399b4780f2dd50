import SuiteSearch.Search.Annealing
import SuiteSearch.Search.Budget
import SuiteSearch.Search.Event

/-!
# Searches

A search works on one candidate. Every iteration replaces the candidate if it has had its share of
mutations or evaluations, mutates it, evaluates it, offers it to the archive, and anneals the
policy. What a search is made of is given by its plan; the plan's parts act on a common world.

A search looks at the clock anew whenever it needs the time. What it does between two readings are
steps of its state; where the readings come from is open. The clock of a plan tells them beforehand,
and a search in another monad asks for them as it goes along.
-/

namespace SuiteSearch

/-- A moment at which a search looks at the clock. -/
inductive Moment
  /-- Before an iteration: is the budget used up? -/
  | checking
  /-- After an evaluation: how far is the search? -/
  | annealing
  /-- The final pass begins. -/
  | closing
  /-- Before the program at this position is evaluated once more: is there time left? -/
  | remeasuring (i : Nat)
  /-- The suite is complete. -/
  | reporting
  deriving DecidableEq

/-- The time since the search began, at every moment and after so many evaluations. -/
structure Clock where
  elapsed : Moment → Nat → Duration

/-- The clock that stands still. -/
def Clock.stopped : Clock := ⟨fun _ _ => ⟨0⟩⟩

/-- What a search is made of. -/
structure SearchPlan (ω : Type) where
  settings : SearchSettings
  goals : GoalSet
  /-- Measures a program. -/
  evaluate : Program → StateM ω (Except Error Evaluation)
  /-- Makes the first candidate. -/
  seed : Act ω Chromosome
  /-- Makes later candidates. -/
  generate : Act ω Chromosome
  mutate : Program → Act ω (Program × Bool)
  clock : Clock

/-- The state of a search. -/
structure Search (ω : Type) where
  archive : Archive
  world : ω
  /-- The candidate that is worked on. -/
  current : Option Chromosome
  policy : SamplingPolicy Float
  iteration : Nat
  budget : Budget
  /-- What happened, the latest first. -/
  events : List SearchEvent

/-- A step of a search; a failed one leaves the state as it is at that moment. -/
abbrev SearchStep (ω α : Type) := ExceptT Error (StateT (Search ω) (Except Fault)) α

/-- A step that may have effects of `n` besides, such as a look at the clock of a machine. -/
abbrev SearchStepT (ω : Type) (n : Type → Type) (α : Type) :=
  ExceptT Error (StateT (Search ω) (ExceptT Fault n)) α

instance {ω : Type} {n : Type → Type} [Monad n] : MonadLift (SearchStep ω) (SearchStepT ω n) :=
  ⟨fun step s => ExceptT.mk (pure (step s))⟩

namespace Search

/-- The state before a search begins. -/
def ofSettings {ω : Type} (s : SearchSettings) (archive : Archive) (world : ω) (budget : Budget) :
    Search ω :=
  ⟨archive, world, none, s.initialPolicy, 0, budget, []⟩

def add {ω : Type} (s : Search ω) (e : SearchEvent) : Search ω := { s with events := e :: s.events }

/-- What happened, in order. -/
def history {ω : Type} (s : Search ω) : List SearchEvent := s.events.reverse

/-- Enters what a search took into its suite. -/
def stamp {ω : Type} (s : Search ω) (elapsed : Duration) (suite : Suite) : Suite :=
  { suite with iterations := s.iteration, evaluations := s.budget.evaluations, elapsed := elapsed }

end Search

/-- What the clock tells at a moment of a search. -/
def Clock.read {ω : Type} {m : Type → Type} [Monad m] [MonadState (Search ω) m] (c : Clock)
    (moment : Moment) : m Duration := do
  let s ← get
  return c.elapsed moment s.budget.evaluations

namespace SearchStep

variable {ω α : Type}

/-- An act takes its words from the world of the search. -/
def act (a : Act ω α) : SearchStep ω α := fun s =>
  (a s.world).map fun (r, w) => (.ok r, { s with world := w })

/-- Runs a step and hands over its failure. -/
def attempt (b : SearchStep ω α) : SearchStep ω (Except Error α) := fun s =>
  (b s).map fun (r, s) => (.ok r, s)

def log (level : Level) (text : String) : SearchStep ω Unit :=
  modify (·.add (.logged ⟨level, text⟩))

end SearchStep

namespace SearchPlan

variable {ω : Type} [WordSource ω]

/-- Evaluates a candidate and offers it to the archive. -/
def evaluateCandidate (plan : SearchPlan ω) (c : Chromosome) : SearchStep ω Chromosome := do
  let s ← get
  let (measured, w) := plan.evaluate c.program s.world
  match measured with
  | .error e =>
    set { s with world := w }
    throw e
  | .ok e =>
    let c := c.recordEvaluation e
    set { s with
      world := w
      budget := s.budget.countEvaluation
      archive := (s.archive.update c e).1 }
    return c

/-- Makes and evaluates the first candidate. -/
def makeFirst (plan : SearchPlan ω) : SearchStep ω Unit := do
  let c ← SearchStep.act plan.seed
  let c ← plan.evaluateCandidate c
  modify fun s => { s with current := some c }

/-- Whether the candidate has had its share. -/
def isSpent (plan : SearchPlan ω) (c : Chromosome) : Bool :=
  plan.settings.maxMutations ≤ c.mutations || plan.settings.maxEvaluations ≤ c.evaluations

/-- Takes a new candidate from the generator or the archive. -/
def resample (plan : SearchPlan ω) : SearchStep ω (Chromosome × SampleSource) := do
  let s ← get
  let (sampled, archive) ← SearchStep.act (s.archive.sample plan.generate s.policy.probability)
  modify fun s => { s with archive := archive }
  match sampled with
  | some (c, source) => return (c, source)
  | none =>
    if !archive.isEmpty then throwThe Fault .archiveNotEmpty
    let e : Error := .resampleExhausted s.iteration
    SearchStep.log .error e.message
    throw e

/-- The candidate to work on, and its source if it is a new one. -/
def candidate (plan : SearchPlan ω) : SearchStep ω (Chromosome × Option SampleSource) := do
  match (← get).current with
  | some c =>
    if plan.isSpent c then
      let (c, source) ← plan.resample
      return (c, some source)
    else return (c, none)
  | none =>
    let (c, source) ← plan.resample
    return (c, some source)

/-- Mutates a candidate; tells whether that changed it. -/
def mutateCandidate (plan : SearchPlan ω) (c : Chromosome) : SearchStep ω (Chromosome × Bool) := do
  let (p, mutated) ← SearchStep.act (plan.mutate c.program)
  if !p.isValid then throwThe Fault .malformedProgram
  return ({ c with program := p }.countMutation, mutated)

/-- What an iteration has done when its candidate is evaluated. -/
structure Worked where
  /-- The length of the candidate after its mutation. -/
  length : Nat
  resampled : Option SampleSource
  mutated : Bool

/-- Mutates and evaluates the candidate to work on. -/
def work (plan : SearchPlan ω) : SearchStep ω Worked := do
  let (c, resampled) ← plan.candidate
  let (c, mutated) ← plan.mutateCandidate c
  let evaluated ← (plan.evaluateCandidate c).attempt
  let c' := evaluated.toOption.getD c
  modify fun s => { s with current := some c' }
  if let .error e := evaluated then throw e
  return ⟨c.length, resampled, mutated⟩

/-- Anneals the policy; the archive follows it. -/
def settle (plan : SearchPlan ω) (elapsed : Duration) (worked : Worked) :
    SearchStep ω IterationStats := do
  let s ← get
  let progress := s.budget.progress elapsed
  let policy := plan.settings.policyAt progress
  let archive := s.archive.shrink policy.retention
  set { s with policy := policy, archive := archive, iteration := s.iteration + 1 }
  return {
    iteration := s.iteration + 1
    progress := progress
    probability := policy.probability
    retention := policy.retention
    covered := archive.coveredGoals.length
    goals := plan.goals.size
    length := worked.length
    resampled := worked.resampled
    mutated := worked.mutated }

/-- One iteration; the clock is read when the candidate is evaluated. -/
def evolveBy {m : Type → Type} [Monad m] [MonadLiftT (SearchStep ω) m] (plan : SearchPlan ω)
    (read : Moment → m Duration) : m IterationStats := do
  let worked ← plan.work
  let elapsed ← read .annealing
  plan.settle elapsed worked

/-- One iteration by the clock of the plan. -/
def evolve (plan : SearchPlan ω) : SearchStep ω IterationStats := plan.evolveBy plan.clock.read

end SearchPlan

end SuiteSearch
