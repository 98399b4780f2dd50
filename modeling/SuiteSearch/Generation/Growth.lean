import SuiteSearch.Chromosome
import SuiteSearch.Generation.Insertion

/-!
# Growing programs

A new program grows by insertions at its end until it has a random length or the attempts are used
up. Insertions may decline, so it can stay shorter, or empty.
-/

namespace SuiteSearch

structure Growth (ω : Type) where
  insert : Insertion ω
  /-- The length drawn is below this one, and at least 1. -/
  maxLength : Nat
  maxAttempts : Nat

namespace Growth

variable {ω : Type} [WordSource ω]

/-- The length to be reached. -/
def targetLength (g : Growth ω) : Draw ω Nat :=
  if g.maxLength ≤ 1 then pure 1 else do
    let n ← Draw.below (g.maxLength - 1)
    return n + 1

/-- The last position of a program. -/
def lastOf (p : Program) : Option Nat := if p.isEmpty then none else some (p.length - 1)

/-- Inserts at the end until the length is reached, in a number of attempts. -/
def growTo (insert : Insertion ω) (target : Nat) : Nat → Program → Act ω Program
  | 0, p => return p
  | attempts + 1, p => do
    if target ≤ p.length then return p
    let (p, _) ← insert p (lastOf p)
    growTo insert target attempts p

/-- A new candidate. -/
def chromosome (g : Growth ω) : Act ω Chromosome := do
  let target ← Act.draw g.targetLength
  let p ← growTo g.insert target g.maxAttempts .empty
  if p.isValid then return .ofProgram p else throw .malformedProgram

end Growth

end SuiteSearch
