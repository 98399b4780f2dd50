import SuiteSearch.Cluster.Document
import SuiteSearch.CommandLine.Request
import SuiteSearch.Oracle.Chat
import SuiteSearch.Random.Standard
import SuiteSearch.Search.Standard
import SuiteSearch.Suite.Report

/-!
# Carrying out requests

A request is carried out on the files that it names. The chat service is reached through a client
whose every exchange fails in transport, so that a guided search falls back to random choices.
-/

namespace SuiteSearch.CommandLine

open SuiteSearch.Random (Standard)

/-- What the program gives back: an exit code, a text, and what went wrong. -/
structure Answer where
  code : Nat
  output : String
  error : Option Error

/-- What a request is carried out in. -/
structure Surroundings where
  /-- The texts of files. -/
  read : String → Option String
  /-- The key of the text service. -/
  key : Option String
  /-- The seed of a search that is given none. -/
  entropy : Nat

namespace Surroundings

def file (s : Surroundings) (path : String) : Except Error String :=
  match s.read path with
  | some text => .ok text
  | none => .error .io

/-- The client that a settings file describes. -/
def client (s : Surroundings) (path : String) : Except Error ChatClient := do
  let settings ← ServiceSettings.ofDocument? (← s.file path)
  (ChatClient.ofSettings? settings s.key).mapError .configuration

end Surroundings

/-! ## Searches -/

/-- The service behind a client that cannot be reached. -/
def unreachable {ω : Type} : TextService ω where
  query _ := return .error (.transport "no connection")
  hooks := ⟨fun _ => return (), fun _ => return ()⟩

/-- The selector of guided programs. -/
def selectorOf (s : Surroundings) (o : SearchOptions) (c : Cluster) :
    Except Error (Selector Standard) :=
  match o.service with
  | none => .ok (.random c)
  | some path => (s.client path).map fun _ => .guided c unreachable .default

/-- The settings of a search; a seed among the options comes first. -/
def settingsOf (s : Surroundings) (o : SearchOptions) : Except Error SearchSettings := do
  let settings ← match o.config with
    | none => .ok .default
    | some path => SearchSettings.ofDocument? (← s.file path)
  return { settings with seed := o.seed <|> settings.seed }

/-- A search that is ready to start. -/
def prepare (s : Surroundings) (o : SearchOptions) :
    Except Error (SearchPlan Standard × Search Standard) := do
  let c ← Cluster.ofDocument? (← s.file o.cluster)
  let settings ← settingsOf s o
  let selector ← selectorOf s o c
  settings.validate.mapError .configuration
  let budget : Budget := ⟨some o.maxEvaluations, o.maxSeconds.map Duration.ofSeconds, 0⟩
  let seed := settings.seed.getD s.entropy
  return (.standard c settings selector,
    .ofSettings settings (.standard c settings) (.ofSeed seed.toUInt64) budget)

/-- The text of a suite in the format that is asked for. -/
def renderSuite (output : String) (suite : Suite) : String :=
  if output = "json" then (Report.ofSuite suite).document ++ "\n" else (Report.ofSuite suite).render

/-! ## Answers -/

def Answer.ofError (e : Error) : Answer := ⟨1, "", some e⟩

/-- The answer of a step that ends a search; a fault has a code of its own. -/
def Answer.ofSuite {ω : Type} (output : String) :
    Except Fault (Except Error Suite × Search ω) → Answer
  | .ok (.ok suite, _) => ⟨0, renderSuite output suite, none⟩
  | .ok (.error e, _) => .ofError e
  | .error _ => ⟨101, "", none⟩

def versionText : String := "summit 0.1.0\n"

def helpText : String := "Usage: summit <COMMAND>\n"

/-- Carries out a request without regard to the time it takes. -/
def Request.answer (s : Surroundings) : Request → Answer
  | .version => ⟨0, versionText, none⟩
  | .help => ⟨0, helpText, none⟩
  | .query path _ =>
    match s.client path with
    | .error e => .ofError e
    | .ok _ => .ofError (.oracle (.transport "no connection"))
  | .search o =>
    match prepare s o with
    | .error e => .ofError e
    | .ok (plan, state) => .ofSuite o.output (plan.run state)

/-- Carries out the request of the arguments; refused ones have a code of their own. -/
def answer (s : Surroundings) (args : List String) : Answer :=
  match Request.ofArguments? args with
  | none => ⟨2, "", none⟩
  | some request => request.answer s

end SuiteSearch.CommandLine
