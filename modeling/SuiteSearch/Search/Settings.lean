import SuiteSearch.Duration
import SuiteSearch.Error
import SuiteSearch.Json.Decoder
import SuiteSearch.Json.Reader

/-!
# Settings of a search

Every setting has a default, so that the empty document describes a search.
-/

namespace SuiteSearch

open Json (Value optional)

structure SearchSettings where
  /-- How likely a candidate is generated at first, rather than drawn from the archive. -/
  generation : Float
  /-- How many candidates are kept for an open goal at first. -/
  retention : Nat
  /-- The part of the budget after which the archive alone is used. -/
  onset : Float
  maxMutations : Nat
  maxEvaluations : Nat
  /-- The bound on the length of programs. -/
  maxLength : Nat
  /-- The number of insertions tried for one new program. -/
  maxAttempts : Nat
  finalizeTimeout : Duration
  seed : Option Nat

namespace SearchSettings

def default : SearchSettings := ⟨0.5, 10, 0.5, 10, 10, 40, 1000, .ofSeconds 5, none⟩

def validate (s : SearchSettings) : Except Misconfiguration Unit :=
  if !(0 ≤ s.generation && s.generation ≤ 1) then .error (.probability s.generation)
  else if s.retention = 0 then .error .noRetention
  else if !(0 < s.onset && s.onset ≤ 1) then .error (.onset s.onset)
  else if s.maxLength = 0 then .error .noLength
  else .ok ()

def ofValue? (v : Value) : Option SearchSettings :=
  match v.fields? ["p_random_test_or_from_archive", "tests_per_target", "exploitation_starts_at",
      "max_mutations_before_giving_up", "max_evaluations_before_giving_up", "chromosome_length",
      "max_attempts", "finalize_timeout_ms", "seed"] with
  | some [generation, retention, onset, mutations, evaluations, length, attempts, timeout,
      seed] => do
    return ⟨← optional default.generation Value.float? generation,
      ← optional default.retention Value.word? retention,
      ← optional default.onset Value.float? onset,
      ← optional default.maxMutations Value.word? mutations,
      ← optional default.maxEvaluations Value.word? evaluations,
      ← optional default.maxLength Value.word? length,
      ← optional default.maxAttempts Value.word? attempts,
      ← optional default.finalizeTimeout (fun v => v.word?.map Duration.ofMillis) timeout,
      ← optional default.seed (Value.nullable? Value.word?) seed⟩
  | _ => none

/-- The settings of a document, if they are valid. -/
def ofDocument? (text : String) : Except Error SearchSettings :=
  match (Value.parse? text).bind ofValue? with
  | none => .error .serialization
  | some s => (s.validate.map fun _ => s).mapError .configuration

end SearchSettings

end SuiteSearch
