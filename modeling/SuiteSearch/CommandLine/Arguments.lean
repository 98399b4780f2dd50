/-!
# Arguments

A command has options with a long and perhaps a short name. The value of an option follows it as the
next argument or after an equals sign; an argument that starts with a dash is no value. An option
occurs once, and there are no other arguments. Arguments are read one after the other: a wrong one is
refused even if help is asked for after it, and what follows the asking does not matter.
-/

namespace SuiteSearch.CommandLine

structure OptionSpec where
  long : String
  short : Option Char
  /-- Which texts are values of the option; none if it takes no value. -/
  accepts : Option (String → Bool)

/-- The options that were given, with their values. -/
inductive Given
  | help
  | options (found : List (String × String))

/-- Whether an argument can be the value of an option. -/
def isValue (arg : String) : Bool :=
  match arg.toList with
  | '-' :: _ :: _ => false
  | _ => true

/-- The parts before and after the first equals sign. -/
def splitEquals (cs : List Char) : String × Option String :=
  (String.ofList (cs.takeWhile (· ≠ '=')),
    match cs.dropWhile (· ≠ '=') with
    | _ :: value => some (String.ofList value)
    | [] => none)

/-- The value that is written together with a short name. -/
def attached : List Char → Option String
  | [] => none
  | '=' :: value => some (String.ofList value)
  | value => some (String.ofList value)

/-- An option as it is written: asking for help, or an option and the value that is attached. -/
inductive Written
  | help
  | option (spec : OptionSpec) (value : Option String)

/-- Reads an argument as an option. -/
def readOption (specs : List OptionSpec) (arg : String) : Option Written :=
  match arg.toList with
  | '-' :: '-' :: name =>
    let (name, value) := splitEquals name
    if name = "help" then (if value.isNone then some .help else none)
    else (specs.find? (·.long == name)).map (.option · value)
  | '-' :: 'h' :: _ => some .help
  | '-' :: c :: rest => (specs.find? (·.short == some c)).map (.option · (attached rest))
  | _ => none

/-- Adds an option that was not given before. -/
def addOnce (found : List (String × String)) (name value : String) :
    Option (List (String × String)) :=
  if found.any (·.1 == name) then none else some (found ++ [(name, value)])

/-- Reads all arguments of a command. -/
def readOptions (specs : List OptionSpec) (found : List (String × String)) :
    List String → Option Given
  | [] => some (.options found)
  | ["--"] => some (.options found)
  | arg :: rest =>
    match readOption specs arg with
    | none => none
    | some .help => some .help
    | some (.option spec value) =>
      match spec.accepts, value, rest with
      | some accepts, some value, rest =>
        if accepts value then do readOptions specs (← addOnce found spec.long value) rest else none
      | some accepts, none, value :: rest =>
        if isValue value && accepts value then do
          readOptions specs (← addOnce found spec.long value) rest
        else none
      | some _, none, [] => none
      | none, none, rest => do readOptions specs (← addOnce found spec.long "") rest
      | none, some _, _ => none

/-- A natural number of 64 bits; a plus sign may stand before it. -/
def word? (s : String) : Option Nat :=
  let digits := match s.toList with
    | '+' :: cs => cs
    | cs => cs
  let n := digits.foldl (fun n c => 10 * n + (c.toNat - 48)) 0
  if digits.isEmpty || !digits.all (fun c => '0' ≤ c && c ≤ '9') || UInt64.size ≤ n then none
  else some n

/-- A path is not empty. -/
def path? (s : String) : Option String := if s = "" then none else some s

/-- The value of an option that may be missing. -/
def optional? {α : Type} (found : List (String × String)) (name : String) (f : String → Option α) :
    Option (Option α) :=
  match found.lookup name with
  | none => some none
  | some s => (f s).map some

end SuiteSearch.CommandLine
