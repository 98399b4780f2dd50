import SuiteSearch.Error

/-!
# Refusals

A request in JSON can be refused for its shape, for what it says, or because carrying it out ended
in a fault. Every way of failing in the library is one of these, so a reading may use any of its
operations as a step.
-/

namespace SuiteSearch.Exchange

/-- Why a request has no answer. -/
inductive Refusal
  | shape (expected : String)
  | error (e : Error)
  | fault (f : Fault)
  deriving DecidableEq

namespace Refusal

def ofFailure : Failure → Refusal
  | .error e => .error e
  | .fault f => .fault f

end Refusal

/-- What is read off a value. -/
abbrev Reading := Except Refusal

instance : MonadLift (Except Error) Reading := ⟨.mapError .error⟩
instance : MonadLift (Except Fault) Reading := ⟨.mapError .fault⟩
instance : MonadLift (Except Failure) Reading := ⟨.mapError .ofFailure⟩
instance : MonadLift (Except Flaw) Reading := ⟨.mapError fun x => .error (.invalidProgram x)⟩
instance : MonadLift (Except Shortage) Reading := ⟨.mapError fun x => .error (.construction x)⟩
instance : MonadLift (Except Misconfiguration) Reading :=
  ⟨.mapError fun x => .error (.configuration x)⟩

/-- What has to be there. -/
def need {α : Type} (expected : String) : Option α → Reading α
  | some a => .ok a
  | none => .error (.shape expected)

end SuiteSearch.Exchange
