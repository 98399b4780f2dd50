import SuiteSearch.Program.Basic

/-!
# Goals

What a test suite is to reach. Goals are numbered in the order in which they are added, starting
from 0, and each belongs to a criterion.
-/

namespace SuiteSearch

/-- The text of a goal's number. -/
def GoalId.render (g : GoalId) : String := s!"goal#{g}"

/-- What kind of thing is to be reached. -/
inductive Criterion
  | line
  | branch
  | method
  | weakMutation
  | strongMutation
  deriving DecidableEq, Repr

namespace Criterion

def all : List Criterion := [line, branch, method, weakMutation, strongMutation]

def name : Criterion → String
  | line => "line"
  | branch => "branch"
  | method => "method"
  | weakMutation => "weak-mutation"
  | strongMutation => "strong-mutation"

end Criterion

structure Goal where
  id : GoalId
  criterion : Criterion
  name : String
  deriving DecidableEq

/-- The criterion and the name of every goal, in the order of the numbers. -/
structure GoalSet where
  entries : List (Criterion × String)
  deriving DecidableEq

namespace GoalSet

def empty : GoalSet := ⟨[]⟩

def size (s : GoalSet) : Nat := s.entries.length

/-- Adds a goal; gives its number. -/
def push (s : GoalSet) (c : Criterion) (name : String) : GoalSet × GoalId :=
  (⟨s.entries ++ [(c, name)]⟩, s.size)

def ids (s : GoalSet) : List GoalId := List.range s.size

def goals (s : GoalSet) : List Goal := s.entries.zipIdx.map fun ((c, name), i) => ⟨i, c, name⟩

def get? (s : GoalSet) (g : GoalId) : Option Goal :=
  s.entries[g]?.map fun (c, name) => ⟨g, c, name⟩

/-- The goals of one criterion. -/
def ofCriterion (s : GoalSet) (c : Criterion) : List Goal := s.goals.filter (·.criterion == c)

/-- The criteria that have a goal. -/
def criteria (s : GoalSet) : List Criterion :=
  Criterion.all.filter fun c => s.entries.any (·.1 == c)

end GoalSet

end SuiteSearch
