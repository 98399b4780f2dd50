import SuiteSearch.Archive.Basic
import SuiteSearch.Random.Draw

/-!
# Sampling candidates

A new candidate is generated or drawn from the archive, and if that gives nothing, the other way
round. An empty program is nothing.

    sampling fails   →   the archive is empty
-/

namespace SuiteSearch

/-- Where a candidate comes from. -/
inductive SampleSource
  | generator
  | archive
  deriving DecidableEq, Repr

def SampleSource.name : SampleSource → String
  | generator => "generator"
  | archive => "archive"

/-- A candidate with its source, if there is one. -/
abbrev Sampled := Option (Chromosome × SampleSource)

namespace Archive

variable {ω : Type} [WordSource ω]

/-- A generated candidate. -/
def generated (generate : Act ω Chromosome) : Act ω Sampled := do
  let c ← generate
  return if c.isEmpty then none else some (c, .generator)

/-- A candidate from the archive. -/
def drawn (a : Archive) : Act ω (Sampled × Archive) := do
  let (c, a) ← Act.draw a.solution
  return ((c.filter fun c => !c.isEmpty).map (·, .archive), a)

/-- A candidate, generated first with some probability. -/
def sample (a : Archive) (generate : Act ω Chromosome) (probability : Float) :
    Act ω (Sampled × Archive) := do
  let x ← Act.draw Draw.unit
  if x < probability then
    match ← generated generate with
    | some c => return (some c, a)
    | none => a.drawn
  else
    match ← a.drawn with
    | (some c, a) => return (some c, a)
    | (none, a) =>
      let c ← generated generate
      return (c, a)

end Archive

end SuiteSearch
