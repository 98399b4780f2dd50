import SuiteSearch.Mutation.Change
import SuiteSearch.Mutation.Deletion

/-!
# Mutation steps

New statements are inserted, each with half the chance of the one before, until a draw misses or the
program is as long as it may be. A step applies deletion, change and insertion, or some of them, in
this order. A kind that leaves the program malformed ends the run.
-/

namespace SuiteSearch

variable {ω : Type} [WordSource ω]

/-! ## Insertion -/

namespace Mutation

/-- The greatest number of insertions tried in one step. A step that gets so far ends without a
further one, where a signed counter of 32 bits would overflow. -/
def maxInsertions : Nat := 0x7FFFFFFF

/-- A position of a program; the empty program has none and takes no word. -/
def randomPosition (p : Program) : Draw ω (Option Nat) :=
  if p.isEmpty then pure none else do
    let i ← Draw.below p.length
    return some i

/-- Inserts while the program is short enough and a draw falls on `1 / 2 ^ k`, where `k` is the
number of insertions tried before. -/
def insertFrom (m : Mutator ω) : Nat → Float → Program → Act ω (Program × Bool)
  | 0, _, p => return (p, false)
  | left + 1, share, p => do
    if m.maxLength ≤ p.length then return (p, false)
    let x ← Act.draw Draw.unit
    if share < x then return (p, false)
    let after ← Act.draw (randomPosition p)
    let (p, inserted) ← m.insert p after
    let (p, insertedLater) ← insertFrom m left (share * 0.5) p
    return (p, inserted.isSome || insertedLater)

/-- Inserts statements; tells whether it inserted any. -/
def insert (m : Mutator ω) (p : Program) : Act ω (Program × Bool) :=
  insertFrom m maxInsertions 1 p

end Mutation

/-! ## Steps -/

namespace Mutator

/-- Applies one kind of change; tells whether it changed the program. -/
def apply (m : Mutator ω) (kind : MutationKind) (p : Program) : Act ω (Program × Bool) := do
  let (p, changed) ← match kind with
    | .delete => Act.draw (Mutation.delete p)
    | .change => Act.draw (Mutation.change m.cluster p)
    | .insert => Mutation.insert m p
  if p.isValid then return (p, changed) else throw .malformedProgram

/-- Applies the kinds of a list, each with a chance of one in three. -/
def applySome (m : Mutator ω) : List MutationKind → Program → Act ω (Program × Bool)
  | [], p => return (p, false)
  | kind :: rest, p => do
    if ← Act.draw (Draw.coin .third) then
      let (p, changed) ← m.apply kind p
      let (p, changedLater) ← m.applySome rest p
      return (p, changed || changedLater)
    else m.applySome rest p

/-- One mutation step; an empty program only grows. -/
def mutate (m : Mutator ω) (p : Program) : Act ω (Program × Bool) :=
  if p.isEmpty then m.apply .insert p else m.applySome MutationKind.all p

end Mutator

end SuiteSearch
