import SuiteSearch.Program.Statement
import SuiteSearch.Program.Environment
import SuiteSearch.Error

/-!
# Programs

A program is a sequence of statements, with what its last run showed. It is valid if every statement
is well formed at its position. Programs are compared by their statements.
-/

namespace SuiteSearch

/-- Goals are numbered. -/
abbrev GoalId := Nat

structure Program where
  statements : List Statement
  /-- The goals that the last run reached, in order. -/
  covered : List GoalId
  violations : List Violation
  failing : Bool
  unstable : Bool
  environment : Environment
  deriving DecidableEq

namespace Program

def empty : Program := ⟨[], [], [], false, false, Environment.empty⟩

def length (p : Program) : Nat := p.statements.length

/-- The largest position that can be told. Going past it is a fault. -/
def lastPosition : Nat := UInt64.size - 1

def isEmpty (p : Program) : Bool := p.statements.isEmpty

/-- Whether two programs have the same statements. -/
def sameStatements (p q : Program) : Bool := p.statements == q.statements

/-- A copy is an individual of its own: nothing is known about its stability. -/
def copy (p : Program) : Program := { p with unstable := false }

/-! ## Validity -/

/-- The first statement that is not well formed, with its position. -/
def firstInvalid? (p : Program) : Option (Statement × Nat) :=
  p.statements.zipIdx.find? fun (s, i) => !s.isValid i

def isValid (p : Program) : Bool := p.statements.zipIdx.all fun (s, i) => s.isValid i

def validate (p : Program) : Except Flaw Unit :=
  match p.firstInvalid? with
  | none => .ok ()
  | some (s, i) => .error (.malformed i (s.code i))

/-! ## Queries -/

def outOfRange (p : Program) (position : Nat) : Flaw := .outOfRange position p.length

def statement? (p : Program) (position : Nat) : Except Flaw Statement :=
  match p.statements[position]? with
  | some s => .ok s
  | none => .error (p.outOfRange position)

/-- The reference to the result of a statement. -/
def returnValue? (p : Program) (position : Nat) : Except Flaw Ref :=
  (p.statement? position).map (·.output position)

/-- The type of a reference. -/
def typeOf? (p : Program) : Ref → Option Ty
  | .value i | .null i => p.statements[i]?.map (·.ty)
  | .field _ f => some f.ty
  | .element array _ => (p.typeOf? array).bind Ty.component
  | .dangling => none

def code (p : Program) : String :=
  "\n".intercalate (p.statements.zipIdx.map fun (s, i) => s.code i)

/-- Whether the program is the beginning of another one, assertions aside. -/
def isStartOf (p q : Program) : Bool :=
  p.length ≤ q.length &&
    (p.statements.zip q.statements).all fun (s, t) => s.op == t.op && s.ty == t.ty

/-- The types that an operation names. -/
def namedTypes : Operation → List Ty
  | .call m _ _ => m.declaring :: m.returns :: m.params
  | .construct k _ _ => k.declaring :: k.params
  | .read f _ => [f.declaring, f.ty]
  | .allocate _ | .store _ _ | .literal _ => []

/-- The classes that the program touches, in order; arrays count as their elements. -/
def accessedTypes (p : Program) : List Ty :=
  let types := p.statements.zipIdx.flatMap fun (s, i) =>
    (s.variableReferences i).filterMap p.typeOf? ++ namedTypes s.op
  Sorted.ofList Ty.precedes ((types.map Ty.element).filter fun t => !t.isPrimitive && !t.isVoid)

/-! ## Assertions -/

def assertions (p : Program) : List Assertion := p.statements.flatMap (·.assertions)

def hasAssertions (p : Program) : Bool := p.statements.any fun s => !s.assertions.isEmpty

/-- The number of statements and assertions. -/
def sizeWithAssertions (p : Program) : Nat := p.length + p.assertions.length

def mapStatements (f : Statement → Statement) (p : Program) : Program :=
  { p with statements := p.statements.map f }

/-- Removes an assertion wherever it is. -/
def removeAssertion (p : Program) (a : Assertion) : Program :=
  p.mapStatements fun s => (s.removeAssertion a).1

def clearAssertions (p : Program) : Program := p.mapStatements Statement.clearAssertions

/-- Attaches the assertions of another program at the same positions. -/
def addAssertionsOf (p q : Program) : Program :=
  let extra := q.statements.map (·.assertions)
  { p with statements := p.statements.zipIdx.map fun (s, i) =>
      (extra.getD i []).foldl (fun s a => (s.addAssertion a).1) s }

/-! ## What the last run showed -/

def cover (p : Program) (g : GoalId) : Program :=
  { p with covered := Sorted.insert Sorted.below g p.covered }

def uncover (p : Program) (g : GoalId) : Program := { p with covered := p.covered.filter (· != g) }

def clearCovered (p : Program) : Program := { p with covered := [] }

def isCovered (p : Program) (g : GoalId) : Bool := p.covered.contains g

def addViolation (p : Program) (v : Violation) : Program :=
  { p with violations := Sorted.insert Violation.precedes v p.violations }

end Program

end SuiteSearch
