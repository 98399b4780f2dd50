import SuiteSearch.Mutation.Basic
import SuiteSearch.Program.Slice

/-!
# Deletion

A statement goes together with all that use its result, directly or not. A store goes alone: nothing
reads its result.

    deleteWithReaders p i     the program without statement i and its users
    delete p                  gives each statement, last to first, the same chance to go
-/

namespace SuiteSearch.Mutation

/-- The statement at a position and, unless it is a store, all that use its result. -/
def withReaders (p : Program) (position : Nat) (s : Statement) : List Nat :=
  if s.op.isStore then [position] else position :: p.referencePositions (s.output position)

/-- Removes a statement and all that use it; tells whether there was one. -/
def deleteWithReaders (p : Program) (position : Nat) : Program × Bool :=
  match p.statements[position]? with
  | none => (p, false)
  | some s =>
    let removed := withReaders p position s
    (p.retain ((List.range p.length).filter fun i => !removed.contains i), true)

/-- Goes from the last of `n` positions to the first and deletes one in `share` statements. -/
def deleteFrom {ω : Type} [WordSource ω] (share : Nat) : Nat → Program → Draw ω (Program × Bool)
  | 0, p => pure (p, false)
  | position + 1, p => do
    if position < p.length then
      if ← oneIn share then
        let (p, _) := deleteWithReaders p position
        let (p, _) ← deleteFrom share position p
        return (p, true)
      else deleteFrom share position p
    else deleteFrom share position p

/-- Deletes statements; tells whether it deleted any. -/
def delete {ω : Type} [WordSource ω] (p : Program) : Draw ω (Program × Bool) :=
  deleteFrom p.length p.length p

end SuiteSearch.Mutation
