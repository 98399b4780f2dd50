import SuiteSearch.Program.Basic

/-!
# Prompts

A prompt describes to a text service which value is wanted and lists the candidates by number. The
digits of the reply are the number of the chosen candidate.
-/

namespace SuiteSearch.Prompt

/-! ## Replies -/

/-- The number that the digits of a reply spell; none without digits, or if it needs over 64 bits.
-/
def parseIndex? (reply : String) : Option Nat :=
  let digits := reply.toList.filter fun c => '0' ≤ c && c ≤ '9'
  let n := digits.foldl (fun n c => 10 * n + (c.toNat - 48)) 0
  if digits.isEmpty || UInt64.size ≤ n then none else some n

/-! ## Prompts -/

/-- The positions that a statement refers to, its own aside. -/
def dependenciesOf (s : Statement) (position : Nat) : List Nat :=
  Sorted.ofList Sorted.below
    (((s.variableReferences position).filterMap Ref.position).filter (· ≠ position))

def dependencyLines (s : Statement) (position : Nat) : List String :=
  match dependenciesOf s position with
  | [] => []
  | ps => ["- Dependencies: " ++ " ".intercalate (ps.map fun p => (Ref.value p).render)]

def operationLines : Operation → List String
  | .call m _ _ => [s!"- Method call: {m.name} from {m.declaring.render}"]
  | .construct k _ _ => [s!"- Constructor of: {k.declaring.render}"]
  | _ => []

/-- The description of one candidate; none if its statement is not there. -/
def candidateLines (p : Program) (position : Nat) (r : Ref) (i : Nat) : List String :=
  match r.position.bind fun d => p.statements[d]?.map (d, ·) with
  | none => []
  | some (declared, s) =>
    ["", s!"Variable #{i}:", s!"- Declared at position: {declared}",
      s!"- Statements between declaration and usage: {position - declared}",
      s!"- Declaration: {s.code declared}"]
      ++ dependencyLines s declared ++ operationLines s.op

def introduction (p : Program) (ty : Ty) (position : Nat) : List String :=
  ["Task: Select the most appropriate variable for testing.",
    "",
    "=== Test Case Execution Model ===",
    "A test case is a sequence of statements that are executed in order.",
    "Each statement can only use variables defined in previous statements.",
    s!"Current statement position: {position}",
    s!"Total statements in test: {p.length}",
    "",
    "=== Variable Dependencies ===",
    s!"We need a variable of type: {ty.render}",
    s!"This variable will be used at position: {position}",
    s!"Only variables declared before position {position} can be used, " ++
      "to maintain proper initialization order.",
    "",
    "=== Available Variables ==="]

def guidelines (ty : Ty) (position : Nat) : List String :=
  ["",
    "=== Selection Guidelines ===",
    s!"1. MUST choose a variable declared before position {position}",
    s!"2. Prefer variables declared closer to position {position} to minimize the scope",
    "3. Prefer variables with fewer dependencies",
    s!"4. Prefer variables that are directly of type {ty.render} " ++
      "over those requiring type conversion",
    "",
    "Return **only the index number** of the most appropriate variable " ++
      "based on the above guidelines."]

/-- The prompt for a value of a type at a position. -/
def render (p : Program) (ty : Ty) (position : Nat) (candidates : List Ref) : String :=
  "\n".intercalate (introduction p ty position
    ++ candidates.zipIdx.flatMap (fun (r, i) => candidateLines p position r i)
    ++ guidelines ty position)

end SuiteSearch.Prompt
