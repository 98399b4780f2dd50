import SuiteSearch.Exchange.Field
import SuiteSearch.Oracle.Retry
import SuiteSearch.Oracle.Settings
import SuiteSearch.Program.Scope
import SuiteSearch.Search.Annealing
import SuiteSearch.Search.Budget
import SuiteSearch.Search.Settings

/-!
# Settings as JSON

The settings of searches, services, retries, budgets and selections. A duration is exchanged as its
whole seconds and the nanoseconds beyond them.
-/

namespace SuiteSearch.Exchange

open Json (Value)

/-! ## Reading -/

def asDuration (v : Value) : Reading Duration := do
  let (seconds, nanos) ← asPair asNat asNat v
  return .ofParts seconds nanos

def duration (v : Value) (name : String) : Reading Duration := do asDuration (← field v name)

def asBackoff (v : Value) : Reading Backoff := do
  match ← text v "kind" with
  | "fixed" => return .fixed (← duration v "delay")
  | "linear" => return .linear (← duration v "step")
  | "exponential" =>
    return .exponential (← duration v "initial") (← nat v "factor") (← duration v "max")
  | other => .error (.shape other)

def asRetryPolicy (v : Value) : Reading RetryPolicy :=
  return ⟨← nat v "max_attempts", ← asBackoff (← field v "backoff")⟩

/-- The retry policy of a request, or the one that is used by default. -/
def retryPolicy (v : Value) : Reading RetryPolicy :=
  return (← maybe v "policy" asRetryPolicy).getD .default

def asBudget (v : Value) : Reading Budget :=
  return ⟨← maybe v "max_evaluations" asNat,
      (← maybe v "max_time_secs" asNat).map Duration.ofSeconds, 0⟩

def filterNamed (name : String) : Reading CandidateFilter :=
  match name with
  | "any" => return .any
  | "non_null" => return .nonNull
  | "non_null_non_primitive" => return .nonNullNonPrimitive
  | other => .error (.shape other)

def mocksNamed (name : String) : Reading MockPolicy :=
  match name with
  | "keep" => return .keep
  | "exclude_all" => return .excludeAll
  | "exclude_functional" => return .excludeFunctional
  | other => .error (.shape other)

/-- A filter by its name, or a named one with changes. -/
def asFilter (v : Value) : Reading CandidateFilter :=
  match v with
  | .text (some name) => filterNamed name
  | v => do
    let f ← filterNamed (← textOr v "base" "any")
    let mocks ← match ← maybe v "mocks" asText with
      | some name => mocksNamed name
      | none => pure f.mocks
    let f : CandidateFilter := ⟨← flagOr v "exclude_null" f.excludeNull,
      ← flagOr v "exclude_primitives" f.excludePrimitives, mocks, f.excludeElements⟩
    return if ← flag v "without_array_elements" then f.withoutElements else f

/-! ## Writing -/

def ofDuration (d : Duration) : Value := .array [num d.seconds, num d.subsecond]

def ofLog (lines : List LogLine) : Value :=
  arr (fun l => .array [str l.level.name, str l.text]) lines

def ofSearchSettings (s : SearchSettings) : Value :=
  obj [("p_random_test_or_from_archive", ofFloat s.generation),
    ("tests_per_target", num s.retention),
    ("exploitation_starts_at", ofFloat s.onset),
    ("max_mutations_before_giving_up", num s.maxMutations),
    ("max_evaluations_before_giving_up", num s.maxEvaluations),
    ("chromosome_length", num s.maxLength),
    ("max_attempts", num s.maxAttempts), ("finalize_timeout", ofDuration s.finalizeTimeout),
    ("seed", orNull num s.seed)]

def ofSamplingPolicy (p : SamplingPolicy Float) : Value :=
  obj [("probability", ofFloat p.probability), ("retention", num p.retention),
    ("exploiting", .bool p.isExploiting)]

def serviceFields (s : ServiceSettings) : List (String × Value) :=
  [("model", str s.model), ("temperature", ofFloat s.temperature), ("max_tokens", num s.maxTokens),
    ("api_url", str s.url), ("api_key", orNull str s.key), ("connect", ofDuration s.connectTimeout),
    ("write", ofDuration s.writeTimeout), ("read", ofDuration s.readTimeout)]

end SuiteSearch.Exchange
