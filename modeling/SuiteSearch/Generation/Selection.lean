import SuiteSearch.Generation.Prompt
import SuiteSearch.Oracle.Retry
import SuiteSearch.Program.Scope
import SuiteSearch.Random.Draw
import SuiteSearch.Text.Escape

/-!
# Choosing values

A selector picks one of the values before a position that fit a type. The random one draws it; the
guided one asks a text service and draws only when every attempt has failed.

    both fail exactly if `findCompatible` offers nothing
-/

namespace SuiteSearch

/-- Picks a value of a type before a position. -/
abbrev Selector (ω : Type) := Program → Ty → Nat → StateM ω (Except Error Ref)

namespace Selector

variable {ω : Type}

/-- Nothing fits a type at a position. -/
def noneFits (ty : Ty) (position : Nat) : Error := .construction (.noValueAt ty.render position)

/-- An equally likely choice among candidates. -/
def chooseFrom [WordSource ω] (candidates : List Ref) (ty : Ty) (position : Nat) :
    StateM ω (Except Error Ref) := do
  match ← Draw.choose candidates with
  | some r => return .ok r
  | none => return .error (noneFits ty position)

/-- An equally likely choice among the values that a filter admits. -/
def filtered [WordSource ω] (c : Cluster) (f : CandidateFilter) : Selector ω :=
  fun p ty position => chooseFrom (p.findCompatible c ty position f) ty position

/-- An equally likely choice among the values that are neither null nor placeholders. -/
def random [WordSource ω] (c : Cluster) : Selector ω := filtered c .nonNull

/-! ## Guided choice -/

/-- The candidate that a reply names. -/
def candidateOf (candidates : List Ref) (reply : String) : Except OracleError (Ref × Nat) :=
  match Prompt.parseIndex? reply with
  | none => .error (.malformed s!"no valid index in reply {Text.quoteText reply}")
  | some i =>
    match candidates[i]? with
    | none => .error (.malformed s!"index {i} outside [0, {candidates.length - 1}]")
    | some r => .ok (r, i)

/-- One attempt to have a candidate chosen. -/
def ask (service : TextService ω) (prompt : String) (candidates : List Ref) (attempt : Nat) :
    StateM ω (Except OracleError Ref) := do
  match ← service.query prompt with
  | .error e => return .error e
  | .ok reply =>
    match candidateOf candidates reply with
    | .error e => return .error e
    | .ok (r, i) =>
      service.hooks.log ⟨.debug, s!"oracle selected index {i} on attempt {attempt}"⟩
      return .ok r

/-- The line that is logged when every attempt has failed. -/
def fallbackLine (e : Exhausted OracleError) : LogLine :=
  ⟨.warn, s!"all {e.attempts} oracle selection attempts failed, " ++
    s!"falling back to random selection: {(Error.oracle e.last).message}"⟩

/-- A choice by a text service, or a random one when the service fails. -/
def guided [WordSource ω] (c : Cluster) (service : TextService ω) (policy : RetryPolicy) :
    Selector ω := fun p ty position => do
  let candidates := p.findCompatible c ty position .nonNull
  if candidates.isEmpty then return .error (noneFits ty position)
  let prompt := Prompt.render p ty position candidates
  match ← policy.run service.hooks (fun e => (Error.oracle e).message)
      (ask service prompt candidates) with
  | .ok r => return .ok r
  | .error exhausted =>
    service.hooks.log (fallbackLine exhausted)
    chooseFrom candidates ty position

end Selector

end SuiteSearch
