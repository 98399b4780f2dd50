import SuiteSearch.Program.Assertion
import SuiteSearch.Ty.Name

/-!
# Statements

A statement is one operation, the type its result is declared with, and the assertions made after
it. It is well formed at a position if all it reads was produced at smaller positions and if it has
an argument for every parameter and a receiver where one is needed.

    isValid s p = true → every r ∈ s.reads has its base below p
-/

namespace SuiteSearch

/-- What a placeholder object stands for. -/
inductive MockKind
  | functional
  | abstractClass
  deriving DecidableEq

inductive Operation
  /-- A constructor call, or a placeholder of the class. -/
  | construct (constructor : Constructor) (args : List Ref) (mock : Option MockKind)
  | call (method : Method) (callee : Option Ref) (args : List Ref)
  | read (field : Field) (source : Option Ref)
  | allocate (length : Nat)
  | store (target value : Ref)
  | literal (value : Literal)
  deriving DecidableEq

namespace Operation

/-- Everything that is read, in order. A store reads its target, too. -/
def reads : Operation → List Ref
  | construct _ args _ => args
  | call _ callee args => callee.toList ++ args
  | read _ source => source.toList
  | store target value => [target, value]
  | allocate _ | literal _ => []

/-- Changes everything that is read. -/
def mapReads (f : Ref → Ref) : Operation → Operation
  | construct k args mock => construct k (args.map f) mock
  | call m callee args => call m (callee.map f) (args.map f)
  | read g source => read g (source.map f)
  | store target value => store (f target) (f value)
  | allocate n => allocate n
  | literal v => literal v

/-- Whether there is an argument for every parameter and a receiver where one is needed. -/
def isComplete : Operation → Bool
  | construct k args mock => mock.isSome || k.params.length == args.length
  | call m callee args => m.params.length == args.length && (m.isStatic || callee.isSome)
  | read f source => f.isStatic || source.isSome
  | allocate _ | store _ _ | literal _ => true

def isStore : Operation → Bool
  | store _ _ => true
  | _ => false

def isLiteral : Operation → Bool
  | literal _ => true
  | _ => false

def mock : Operation → Option MockKind
  | construct _ _ mock => mock
  | _ => none

/-- The reference to the result at a position. A store gives the element it writes. -/
def output (position : Nat) : Operation → Ref
  | literal .null => .null position
  | store target _ => target
  | _ => .value position

end Operation

structure Statement where
  op : Operation
  /-- The declared type of the result. -/
  ty : Ty
  assertions : List Assertion
  deriving DecidableEq

namespace Statement

/-! ## Making statements -/

def ofOperation (op : Operation) (ty : Ty) : Statement := ⟨op, ty, []⟩

def construct (k : Constructor) (args : List Ref) : Statement :=
  ofOperation (.construct k args none) k.declaring

def mock (ty : Ty) (kind : MockKind) : Statement :=
  ofOperation (.construct ⟨ty, []⟩ [] (some kind)) ty

def call (m : Method) (callee : Option Ref) (args : List Ref) : Statement :=
  ofOperation (.call m callee args) m.returns

def read (f : Field) (source : Option Ref) : Statement := ofOperation (.read f source) f.ty

def allocate (component : Ty) (length : Nat) : Statement :=
  ofOperation (.allocate length) (.array component)

/-- Stores a value in an element of an array. -/
def store (array : Ref) (index : Nat) (value : Ref) (component : Ty) : Statement :=
  ofOperation (.store (.element array index) value) component

def literal (value : Literal) (ty : Ty) : Statement := ofOperation (.literal value) ty

/-- A typed null. -/
def null (ty : Ty) : Statement := literal .null ty

/-! ## Views -/

def reads (s : Statement) : List Ref := s.op.reads

def output (s : Statement) (position : Nat) : Ref := s.op.output position

/-- A reference and the one it hangs on. -/
def withAdditional (r : Ref) : List Ref := r :: r.additional.toList

/-- All references of the statement at a position, each once: its result and its reads, each
followed by the reference it hangs on. -/
def variableReferences (s : Statement) (position : Nat) : List Ref :=
  ((s.output position :: s.reads).flatMap withAdditional).eraseDups

/-- Whether the statement at a position has to do with a value. -/
def references (s : Statement) (position : Nat) (r : Ref) : Bool :=
  ((s.output position :: s.reads).flatMap withAdditional).any (·.sameValue r)

/-- Whether a reference has its base before a position. -/
def resolves (position : Nat) (r : Ref) : Bool := r.position.any (· < position)

/-- Whether the statement is well formed at a position. -/
def isValid (s : Statement) (position : Nat) : Bool :=
  s.reads.all (resolves position) && s.op.isComplete

/-! ## Changes -/

/-- Changes everything that the statement and its assertions read. -/
def mapReads (f : Ref → Ref) (s : Statement) : Statement :=
  ⟨s.op.mapReads f, s.ty, s.assertions.map (·.mapSource f)⟩

/-- Renumbers the bases. -/
def remap (f : Nat → Option Nat) (s : Statement) : Statement := s.mapReads (·.remap f)

/-- Puts one reference for another. -/
def replace (old new : Ref) (s : Statement) : Statement := s.mapReads (Ref.replace old new)

def withTy (s : Statement) (ty : Ty) : Statement := { s with ty := ty }

/-- Attaches an assertion that is not there yet, and tells whether it was missing. -/
def addAssertion (s : Statement) (a : Assertion) : Statement × Bool :=
  if s.assertions.contains a then (s, false)
  else ({ s with assertions := s.assertions ++ [a] }, true)

/-- Removes an assertion, and tells whether it was there. -/
def removeAssertion (s : Statement) (a : Assertion) : Statement × Bool :=
  ({ s with assertions := s.assertions.filter (· != a) }, s.assertions.contains a)

def clearAssertions (s : Statement) : Statement := { s with assertions := [] }

/-! ## Text -/

def renderRefs (refs : List Ref) : String := ", ".intercalate (refs.map Ref.render)

/-- An expression whose value is kept in the variable of a position. -/
def declare (ty : Ty) (position : Nat) (expr : String) : String :=
  if ty.isVoid then expr ++ ";" else s!"{ty.render} {(Ref.value position).render} = {expr};"

/-- The statement without its assertions. -/
def operationCode (s : Statement) (position : Nat) : String :=
  match s.op with
  | .construct _ _ (some _) => declare s.ty position s!"mock({s.ty.render}.class)"
  | .construct k args none =>
    declare s.ty position s!"new {k.declaring.render}({renderRefs args})"
  | .call m callee args =>
    let receiver := callee.elim m.declaring.render Ref.render
    declare s.ty position s!"{receiver}.{m.name}({renderRefs args})"
  | .read f source =>
    let holder := source.elim f.declaring.render Ref.render
    declare s.ty position s!"{holder}.{f.name}"
  | .allocate length =>
    declare s.ty position s!"new {(s.ty.component.getD s.ty).render}[{length}]"
  | .store target value => s!"{target.render} = {value.render};"
  | .literal value => declare s.ty position value.code

/-- The statement at a position, with an assertion a line after it. -/
def code (s : Statement) (position : Nat) : String :=
  "\n".intercalate (s.operationCode position :: s.assertions.map Assertion.code)

end Statement

end SuiteSearch
