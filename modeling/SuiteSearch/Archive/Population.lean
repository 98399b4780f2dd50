import SuiteSearch.Chromosome

/-!
# Populations

The best candidates for one goal. As long as none reaches the goal, a bounded number of candidates
is kept in the order of their values and lengths. Once one does, a single candidate is kept, and
only a shorter one takes its place.
-/

namespace SuiteSearch

/-- A candidate that has made some progress. -/
structure Entry where
  heuristic : Float
  chromosome : Chromosome

namespace Entry

/-- Smaller values first, then shorter programs. -/
def ranksBefore (a b : Entry) : Bool :=
  a.heuristic < b.heuristic ||
    (a.heuristic == b.heuristic && a.chromosome.length < b.chromosome.length)

/-- Puts an entry before the first one that it ranks before. -/
def insert (e : Entry) : List Entry → List Entry
  | [] => [e]
  | f :: rest => if e.ranksBefore f then e :: f :: rest else f :: insert e rest

end Entry

structure Population where
  /-- The candidate that reaches the goal. -/
  covering : Option Chromosome
  entries : List Entry
  /-- How often candidates were drawn since the last change. -/
  selections : Nat

namespace Population

def empty : Population := ⟨none, [], 0⟩

def isEmpty (p : Population) : Bool := p.covering.isNone && p.entries.isEmpty

/-- Whether the goal is open and there are candidates to draw from. -/
def isOpen (p : Population) : Bool := p.covering.isNone && !p.entries.isEmpty

/-- Offers a candidate that reaches the goal; tells whether it was taken. -/
def offerCovering (p : Population) (c : Chromosome) : Population × Bool :=
  if p.covering.all fun old => c.length < old.length then (⟨some c.copy, [], 0⟩, true)
  else (p, false)

/-- Puts an entry into a list of at most `capacity` entries if there is room or it ranks before the
last one. -/
def enter (entries : List Entry) (e : Entry) (capacity : Nat) : Option (List Entry) :=
  if entries.length < capacity || entries.getLast?.any e.ranksBefore then
    some ((e.insert entries).take capacity)
  else none

/-- Offers a candidate that does not reach the goal; tells whether it was taken. An entry of the
same program makes way for a better one. -/
def offerPartial (p : Population) (c : Chromosome) (heuristic : Float) (capacity : Nat) :
    Population × Bool :=
  if p.covering.isSome || noProgress ≤ heuristic then (p, false)
  else
    let e : Entry := ⟨heuristic, c.copy⟩
    let isSame (f : Entry) : Bool := f.chromosome.program.sameStatements c.program
    match p.entries.find? isSame with
    | some old =>
      if !e.ranksBefore old then (p, false)
      else
        let others := p.entries.eraseP isSame
        match enter others e capacity with
        | some entries => (⟨p.covering, entries, 0⟩, true)
        | none => ({ p with entries := others }, false)
    | none =>
      match enter p.entries e capacity with
      | some entries => (⟨p.covering, entries, 0⟩, true)
      | none => (p, false)

/-- Offers a candidate with its value; tells whether it was taken. -/
def offer (p : Population) (c : Chromosome) (heuristic : Float) (capacity : Nat) :
    Population × Bool :=
  if heuristic ≤ 0 then p.offerCovering c else p.offerPartial c heuristic capacity

/-- The best value so far. -/
def best (p : Population) : Float :=
  if p.covering.isSome then 0 else (p.entries.head?.map (·.heuristic)).getD noProgress

/-- The number of candidates. -/
def retained (p : Population) : Nat := p.entries.length + (if p.covering.isSome then 1 else 0)

/-- Keeps the best entries only. -/
def shrink (p : Population) (n : Nat) : Population := { p with entries := p.entries.take n }

end Population

end SuiteSearch
