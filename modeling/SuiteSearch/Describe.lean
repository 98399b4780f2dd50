import SuiteSearch.Oracle.Chat
import SuiteSearch.Search.Standard
import SuiteSearch.Text.Escape

/-!
# Descriptions

Short descriptions of the parts of a search, for people who look into one. A part is named with its
settings; dots stand for what is left out.
-/

namespace SuiteSearch

namespace Describe

/-- A name with fields in braces. -/
def braced (name : String) (items : List String) : String :=
  name ++ " \x7b " ++ ", ".intercalate items ++ " \x7d"

def field (name value : String) : String := s!"{name}: {value}"

/-- A part of which some fields are shown. -/
def abridged (name : String) (fields : List (String × String)) : String :=
  braced name (fields.map (fun (n, v) => field n v) ++ [".."])

/-- A part of which all fields are shown. -/
def whole (name : String) (fields : List (String × String)) : String :=
  braced name (fields.map fun (n, v) => field n v)

def number (x : Float) : String := Decimal.Layout.source.render x

end Describe

open Describe

def Backoff.describe : Backoff → String
  | .fixed delay => s!"Fixed({delay.render})"
  | .linear step => whole "Linear" [("step", step.render)]
  | .exponential initial factor max => whole "Exponential"
      [("initial", initial.render), ("factor", toString factor), ("max", max.render)]

def RetryPolicy.describe (p : RetryPolicy) : String :=
  whole "RetryPolicy" [("max_attempts", toString p.maxAttempts), ("backoff", p.backoff.describe)]

/-- A selector that asks a text service. -/
def RetryPolicy.describeSelector (p : RetryPolicy) : String :=
  abridged "LlmVariableSelector" [("policy", p.describe)]

def Inserter.describe {ω : Type} (ins : Inserter ω) : String :=
  abridged "ClusterInserter"
    [("max_depth", toString ins.maxDepth), ("reuse_probability", number ins.reuse)]

def Growth.describe {ω : Type} (g : Growth ω) : String :=
  abridged "GuidedFactory"
    [("max_length", toString g.maxLength), ("max_attempts", toString g.maxAttempts)]

def Mutator.describe {ω : Type} (m : Mutator ω) : String :=
  abridged "StructuralMutator" [("max_length", toString m.maxLength)]

/-- The measure of method coverage. -/
def MethodCoverage.describe (c : Cluster) : String :=
  abridged "MethodCoverageOracle" [("goals", toString (MethodCoverage.goals c).size)]

/-- The choice between the generator and the archive. -/
def Archive.describeSampling : String := abridged "HybridSampler" []

def ChatClient.describe (c : ChatClient) : String :=
  abridged "HttpTextOracle"
    [("model", Text.quoteText c.settings.model), ("api_url", Text.quoteText c.settings.url)]

def SearchSettings.describe (s : SearchSettings) : String :=
  whole "SearchConfig"
    [("p_random_test_or_from_archive", number s.generation),
      ("tests_per_target", toString s.retention),
      ("exploitation_starts_at", number s.onset),
      ("max_mutations_before_giving_up", toString s.maxMutations),
      ("max_evaluations_before_giving_up", toString s.maxEvaluations),
      ("chromosome_length", toString s.maxLength),
      ("max_attempts", toString s.maxAttempts),
      ("finalize_timeout_ms", toString s.finalizeTimeout.millis),
      ("seed", match s.seed with
        | some n => s!"Some({n})"
        | none => "None")]

def SamplingPolicy.describe (p : SamplingPolicy Float) : String :=
  whole "SamplingPolicy"
    [("probability", number p.probability), ("retention", toString p.retention)]

def Search.describe {ω : Type} (s : Search ω) (settings : SearchSettings) : String :=
  abridged "Summit"
    [("config", settings.describe), ("policy", s.policy.describe),
      ("iteration", toString s.iteration)]

end SuiteSearch
