import SuiteSearch.CommandLine.Arguments

/-!
# Requests

What the arguments of the program ask for: a search, one prompt to a text service, or the version.
-/

namespace SuiteSearch.CommandLine

structure SearchOptions where
  cluster : String
  config : Option String
  service : Option String
  maxEvaluations : Nat
  maxSeconds : Option Nat
  seed : Option Nat
  output : String
  progress : Bool
  deriving DecidableEq, Repr

inductive Request
  | search (o : SearchOptions)
  | query (service prompt : String)
  | version
  | help
  deriving DecidableEq, Repr

def isPath (s : String) : Bool := (path? s).isSome

def isWord (s : String) : Bool := (word? s).isSome

def searchSpecs : List OptionSpec :=
  [⟨"cluster", some 'c', some isPath⟩, ⟨"config", none, some isPath⟩, ⟨"llm", none, some isPath⟩,
    ⟨"max-evaluations", none, some isWord⟩, ⟨"max-seconds", none, some isWord⟩,
    ⟨"seed", none, some isWord⟩, ⟨"output", some 'o', some fun _ => true⟩,
    ⟨"progress", none, none⟩]

def querySpecs : List OptionSpec :=
  [⟨"llm", none, some isPath⟩, ⟨"prompt", some 'p', some fun _ => true⟩]

def searchRequest? (found : List (String × String)) : Option Request := do
  let cluster ← path? (← found.lookup "cluster")
  let config ← optional? found "config" path?
  let service ← optional? found "llm" path?
  let evaluations ← optional? found "max-evaluations" word?
  let seconds ← optional? found "max-seconds" word?
  let seed ← optional? found "seed" word?
  return .search ⟨cluster, config, service, evaluations.getD 10000, seconds, seed,
    (found.lookup "output").getD "text", (found.lookup "progress").isSome⟩

def queryRequest? (found : List (String × String)) : Option Request := do
  return .query (← path? (← found.lookup "llm")) (← found.lookup "prompt")

/-- The request of a command's arguments. -/
def commandRequest? (specs : List OptionSpec) (make : List (String × String) → Option Request)
    (args : List String) : Option Request :=
  match readOptions specs [] args with
  | none => none
  | some .help => some .help
  | some (.options found) => make found

/-- Whether an argument is a group of short names that starts with the given one. -/
def startsShort (c : Char) (arg : String) : Bool :=
  match arg.toList with
  | '-' :: d :: _ => c == d
  | _ => false

/-- The commands that help can be asked for by name. -/
def commands : List String := ["search", "query", "help"]

/-- Help is given for one command at a time. -/
def helpRequest? : List String → Option Request
  | [] => some .help
  | [command] => if commands.contains command then some .help else none
  | _ => none

/-- What the arguments ask for, unless they are refused. -/
def Request.ofArguments? : List String → Option Request
  | [] => none
  | arg :: rest =>
    if arg = "search" then commandRequest? searchSpecs searchRequest? rest
    else if arg = "query" then commandRequest? querySpecs queryRequest? rest
    else if arg = "help" then helpRequest? rest
    else if arg = "--version" || startsShort 'V' arg then some .version
    else if arg = "--help" || startsShort 'h' arg then some .help
    else none

end SuiteSearch.CommandLine
