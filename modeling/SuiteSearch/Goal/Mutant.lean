import SuiteSearch.Goal.Basic

/-!
# Mutants as goals

A mutant is a seeded fault. When a class has too many of them, whole families of operators are
dropped in a fixed order until fewer than the limit are left.
-/

namespace SuiteSearch

structure Mutant where
  /-- What was changed; it starts with the name of a family. -/
  operator : String
  method : String
  line : Nat
  deriving DecidableEq

namespace Mutant

/-- The families that can be dropped, in the order in which they are. -/
def dropOrder : List String :=
  ["ReplaceVariable", "InsertUnaryOperator", "ReplaceConstant", "ReplaceArithmeticOperator"]

/-- Whether the mutant comes from an operator of a family. -/
def isOf (family : String) (m : Mutant) : Bool := family.toList.isPrefixOf m.operator.toList

/-- Drops families until fewer than `limit` mutants are left. -/
def dropFamilies (limit : Nat) : List String → List Mutant → List Mutant
  | [], ms => ms
  | family :: rest, ms =>
    let kept := ms.filter fun m => !m.isOf family
    if kept.length < limit then kept else dropFamilies limit rest kept

/-- The mutants that remain; at most `limit` of them are all kept. -/
def limited (ms : List Mutant) (limit : Nat) : List Mutant :=
  if ms.length ≤ limit then ms else dropFamilies limit dropOrder ms

/-- The name of the goal of a mutant. -/
def goalName (m : Mutant) : String := s!"{m.method}:{m.line} {m.operator}"

end Mutant

namespace GoalSet

/-- Adds one goal a mutant; gives their numbers. -/
def pushMutants (s : GoalSet) (c : Criterion) : List Mutant → GoalSet × List GoalId
  | [] => (s, [])
  | m :: rest =>
    let (s, g) := s.push c m.goalName
    let (s, gs) := s.pushMutants c rest
    (s, g :: gs)

/-- Adds goals for the mutants that remain under a limit. -/
def addMutants (s : GoalSet) (ms : List Mutant) (strong : Bool) (limit : Nat) :
    GoalSet × List GoalId :=
  s.pushMutants (if strong then .strongMutation else .weakMutation) (Mutant.limited ms limit)

end GoalSet

end SuiteSearch
