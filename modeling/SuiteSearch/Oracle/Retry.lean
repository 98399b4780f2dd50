import SuiteSearch.Duration
import SuiteSearch.Error

/-!
# Text services and retrying

A text service answers a prompt with a text or fails. An operation that can fail is tried a bounded
number of times, with a pause after every failed attempt but the last. The pauses follow a schedule.

    exponential: min (initial · factor ^ (k - 1)) max, where the power stops at 2 ^ 32 - 1
-/

namespace SuiteSearch

/-! ## Schedules -/

/-- How long to wait after a failed attempt. -/
inductive Backoff
  | fixed (delay : Duration)
  | linear (step : Duration)
  | exponential (initial : Duration) (factor : Nat) (max : Duration)
  deriving DecidableEq, Repr

namespace Backoff

/-- The greatest number that an attempt is counted or a delay multiplied with. -/
def limit : Nat := UInt32.size - 1

/-- The number of an attempt, from 1 to the limit. -/
def counted (attempt : Nat) : Nat := min (max attempt 1) limit

/-- A power as far as it can be told. -/
def growth (factor k : Nat) : Nat :=
  if 2 ≤ factor ∧ 32 ≤ k then limit else min (Nat.pow factor k) limit

/-- The pause after a failed attempt; attempts are counted from 1. -/
def delayAfter (b : Backoff) (attempt : Nat) : Duration :=
  match b with
  | fixed delay => delay
  | linear step => step.times (counted attempt)
  | exponential initial factor max =>
    (initial.times (growth factor (counted attempt - 1))).least max

end Backoff

/-! ## Policies -/

structure RetryPolicy where
  maxAttempts : Nat
  backoff : Backoff
  deriving DecidableEq, Repr

/-- No attempt succeeded. -/
structure Exhausted (ε : Type) where
  attempts : Nat
  last : ε

def Exhausted.message {ε : Type} (render : ε → String) (e : Exhausted ε) : String :=
  s!"gave up after {e.attempts} attempts: {render e.last}"

/-- What goes on between attempts. -/
structure RetryHooks (ω : Type) where
  pause : Duration → StateM ω Unit
  log : LogLine → StateM ω Unit

namespace RetryPolicy

/-- Three attempts, with pauses that grow by a tenth of a second. -/
def default : RetryPolicy := ⟨3, .linear (Duration.ofMillis 100)⟩

/-- The number of attempts; one is always made. -/
def attempts (policy : RetryPolicy) : Nat := max policy.maxAttempts 1

variable {ω ε α : Type}

/-- Goes on with an attempt when `left` more may follow it. -/
def runFrom (policy : RetryPolicy) (hooks : RetryHooks ω) (render : ε → String)
    (op : Nat → StateM ω (Except ε α)) : Nat → Nat → StateM ω (Except (Exhausted ε) α)
  | left, attempt => do
    match ← op attempt with
    | .ok a => return .ok a
    | .error e =>
      hooks.log ⟨.debug, s!"attempt {attempt}/{policy.attempts} failed: {render e}"⟩
      match left with
      | 0 => return .error ⟨policy.attempts, e⟩
      | left + 1 =>
        hooks.pause (policy.backoff.delayAfter attempt)
        runFrom policy hooks render op left (attempt + 1)

/-- Tries an operation, which is told the number of the attempt, until it succeeds. -/
def run (policy : RetryPolicy) (hooks : RetryHooks ω) (render : ε → String)
    (op : Nat → StateM ω (Except ε α)) : StateM ω (Except (Exhausted ε) α) :=
  policy.runFrom hooks render op (policy.attempts - 1) 1

end RetryPolicy

/-! ## Services -/

/-- A service that is asked for texts. Using one leaves traces in the world: what was asked, how
long was waited, what was logged. -/
structure TextService (ω : Type) where
  /-- Answers a prompt. A service is documented to fail with an `OracleError`; its interface would
  admit every `Error`. -/
  query : String → StateM ω (Except OracleError String)
  hooks : RetryHooks ω

end SuiteSearch
