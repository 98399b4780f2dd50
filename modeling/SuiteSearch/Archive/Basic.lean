import SuiteSearch.Archive.Population
import SuiteSearch.Random.Draw

/-!
# The archive

A population for every goal. A candidate is drawn from the open goal that was drawn from least; when
there is none, from all candidates that reach a goal.
-/

namespace SuiteSearch

structure Archive where
  /-- In the order of the goals. -/
  populations : List (GoalId × Population)
  /-- How many candidates are kept for an open goal. -/
  capacity : Nat
  /-- Whether something changed since the covering programs were last asked for. -/
  updated : Bool

namespace Archive

def ofGoals (goals : List GoalId) (capacity : Nat) : Archive :=
  ⟨(Sorted.ofList Sorted.below goals).map (·, Population.empty), max capacity 1, false⟩

def population? (a : Archive) (g : GoalId) : Option Population := a.populations.lookup g

def retained (a : Archive) (g : GoalId) : Nat := (a.population? g).elim 0 Population.retained

def isEmpty (a : Archive) : Bool := a.populations.all fun (_, p) => p.isEmpty

/-- The goals that a candidate reaches. -/
def coveredGoals (a : Archive) : List GoalId :=
  (a.populations.filter fun (_, p) => p.covering.isSome).map (·.1)

/-- The best value of a goal so far. -/
def bestValue (a : Archive) (g : GoalId) : Float :=
  (a.population? g).elim noProgress Population.best

/-- Offers an evaluated candidate to every population; tells whether one took it. -/
def update (a : Archive) (c : Chromosome) (e : Evaluation) : Archive × Bool :=
  if c.isEmpty then (a, false)
  else
    let offered := a.populations.map fun (g, p) => (g, p.offer c (e.value g) a.capacity)
    let changed := offered.any fun (_, _, taken) => taken
    ({ a with
        populations := offered.map fun (g, p, _) => (g, p)
        updated := a.updated || changed },
      changed)

/-- The first of the open goals that were drawn from least. -/
def leastDrawn? (a : Archive) : Option (GoalId × Population) :=
  (a.populations.filter fun (_, p) => p.isOpen).foldl (fun least x =>
    match least with
    | none => some x
    | some y => if x.2.selections < y.2.selections then some x else some y) none

/-- Counts a draw from the population of a goal. -/
def countDraw (a : Archive) (g : GoalId) : Archive :=
  { a with populations := a.populations.map fun (k, p) =>
      (k, if k = g then { p with selections := p.selections + 1 } else p) }

/-- The candidates that reach a goal. -/
def covering (a : Archive) : List Chromosome := a.populations.filterMap fun (_, p) => p.covering

/-- A fresh copy of a candidate. -/
def solution {ω : Type} [WordSource ω] (a : Archive) : Draw ω (Option Chromosome × Archive) := do
  match a.leastDrawn? with
  | some (g, p) =>
    let e ← Draw.choose p.entries
    return (e.map (·.chromosome.freshCopy), a.countDraw g)
  | none =>
    let c ← Draw.choose a.covering
    return (c.map (·.freshCopy), a)

/-- Appends a program unless its statements are there already. -/
def pushDistinct (programs : List Program) (c : Chromosome) : List Program :=
  if programs.any (·.sameStatements c.program) then programs else programs ++ [c.program.copy]

/-- The different programs that reach a goal. -/
def solutions (a : Archive) : List Program × Archive :=
  (a.covering.foldl pushDistinct [], { a with updated := false })

/-- Keeps at most `n` candidates for an open goal from now on. -/
def shrink (a : Archive) (n : Nat) : Archive :=
  { a with
    populations := a.populations.map fun (g, p) => (g, p.shrink (max n 1))
    capacity := max n 1 }

end Archive

end SuiteSearch
