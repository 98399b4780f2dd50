import SuiteSearch.Generation.Insertion
import SuiteSearch.Scalar

/-!
# Kinds of mutation

A mutation step deletes statements, changes them, or inserts new ones. Deletion and change choose
their statements by the same chance: one in as many as there are.
-/

namespace SuiteSearch

inductive MutationKind
  | delete
  | change
  | insert
  deriving DecidableEq, Repr

namespace MutationKind

/-- In the order in which they are tried. -/
def all : List MutationKind := [delete, change, insert]

def code : MutationKind → String
  | delete => "DEL"
  | change => "CHG"
  | insert => "INS"

def description : MutationKind → String
  | delete => "Statement Deletion"
  | change => "Statement Change"
  | insert => "Statement Insertion"

end MutationKind

structure Mutator (ω : Type) where
  cluster : Cluster
  insert : Insertion ω
  /-- A program of this length grows no further. -/
  maxLength : Nat

namespace Mutation

/-- Whether a draw falls on a share of one in `n`. -/
def oneIn {ω : Type} [WordSource ω] (n : Nat) : Draw ω Bool := do
  let x ← Draw.unit
  return x ≤ 1 / Scalar.count n

end Mutation

end SuiteSearch
