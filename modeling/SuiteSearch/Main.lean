import SuiteSearch.CommandLine.Run

/-!
# The program

Reads the files that a request names, carries it out, and prints the answer. A search runs by the
clock of the machine, which it reads at every moment at which it needs the time.
-/

open SuiteSearch CommandLine

/-- The texts of the files that can be read. -/
def readFiles (paths : List String) : IO (List (String × String)) :=
  paths.filterMapM fun (path : String) => do
    try
      let text ← IO.FS.readFile path
      return some (path, text)
    catch _ => return none

/-- The files that a request names. -/
def pathsOf : Request → List String
  | .search o => o.cluster :: o.config.toList ++ o.service.toList
  | .query path _ => [path]
  | _ => []

/-- The time since a search began. -/
def elapsedSince (began : Nat) : IO Duration := return ⟨(← IO.monoNanosNow) - began⟩

/-- A search by the clock of the machine. -/
def runTimed {ω : Type} [WordSource ω] (plan : SearchPlan ω) (s : Search ω) :
    IO (Except Fault (Except Error Suite × Search ω)) := do
  let began ← IO.monoNanosNow
  (plan.runBy fun _ => elapsedSince began : SearchStepT ω IO Suite) s

/-- Carries out a request. -/
def carryOut (s : Surroundings) (request : Request) : IO Answer := do
  match request with
  | .search o =>
    match prepare s o with
    | .ok (plan, state) => return .ofSuite o.output (← runTimed plan state)
    | .error e => return .ofError e
  | request => return request.answer s

def main (args : List String) : IO UInt32 := do
  match Request.ofArguments? args with
  | none =>
    IO.eprintln "error: the arguments are not understood"
    return 2
  | some request =>
    let files ← readFiles (pathsOf request)
    let key ← IO.getEnv ServiceSettings.keyVariable
    let entropy ← IO.rand 0 (UInt64.size - 1)
    let answer ← carryOut ⟨fun path => files.lookup path, key, entropy⟩ request
    IO.print answer.output
    if let some e := answer.error then IO.eprintln s!"Error: {e.message}"
    return answer.code.toUInt32
