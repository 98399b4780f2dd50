import SuiteSearch.Program.Basic
import SuiteSearch.Cluster.Members

/-!
# Values in scope

Which earlier values can be reused where a value of a type is needed. A filter leaves out values
that a use does not admit.
-/

namespace SuiteSearch

/-- What is done with placeholder objects. -/
inductive MockPolicy
  | keep
  | excludeAll
  /-- Placeholders of abstract classes stay. -/
  | excludeFunctional
  deriving DecidableEq

/-- What is left out. -/
structure CandidateFilter where
  excludeNull : Bool
  /-- Leaves out literals, primitives and boxes. -/
  excludePrimitives : Bool
  mocks : MockPolicy
  excludeElements : Bool
  deriving DecidableEq

namespace MockPolicy

def admits (policy : MockPolicy) (mock : Option MockKind) : Bool :=
  match policy with
  | keep => true
  | excludeAll => mock.isNone
  | excludeFunctional => mock != some .functional

end MockPolicy

namespace CandidateFilter

def any : CandidateFilter := ⟨false, false, .keep, false⟩

def nonNull : CandidateFilter := ⟨true, false, .excludeAll, false⟩

def nonNullNonPrimitive : CandidateFilter := ⟨true, true, .excludeFunctional, false⟩

def withoutElements (f : CandidateFilter) : CandidateFilter := { f with excludeElements := true }

/-- The statement at the base of a reference. -/
def baseStatement? (p : Program) (r : Ref) : Option Statement :=
  r.position.bind fun i => p.statements[i]?

/-- Whether a reference is a literal, or a primitive or boxed value. -/
def isPrimitiveValue (p : Program) (r : Ref) : Bool :=
  (baseStatement? p r).any (·.op.isLiteral) ||
    (p.typeOf? r).any fun t => t.isPrimitive || t.isWrapper

/-- Whether a reference of the program may be used. -/
def admits (f : CandidateFilter) (p : Program) (r : Ref) : Bool :=
  !(f.excludeNull && r.isNull) && !(f.excludeElements && r.isElement)
    && !(f.excludePrimitives && isPrimitiveValue p r)
    && f.mocks.admits ((baseStatement? p r).bind (·.op.mock))

end CandidateFilter

namespace Program

/-! ## Fields -/

/-- The number of fields that may follow one another in a reference. -/
def maxFieldDepth : Nat := 2

/-- Appends the fields of a value, and theirs, that are wanted and not listed yet; at most `depth`
in a row. -/
def pushFields (c : Cluster) (wanted : Ty → Bool) : Nat → Ref → Ty → List Ref → List Ref
  | 0, _, _, out => out
  | depth + 1, r, ty, out =>
    if ty.isPrimitive || r.isNull then out
    else (c.accessibleFields ty).foldl (fun out f =>
      let next := Ref.field r f
      let out := if wanted f.ty && !out.contains next then out ++ [next] else out
      pushFields c wanted depth next f.ty out) out

/-! ## Values of a type -/

/-- Whether one of the statements writes an element of an array. -/
def isInitialized (statements : List Statement) (array : Ref) (index : Nat) : Bool :=
  statements.any fun s =>
    match s.op with
    | .store target _ => target.sameValue (.element array index)
    | _ => false

/-- Whether the statement calls the method whose results are never reused. -/
def isHashCode (s : Statement) : Bool :=
  match s.op with
  | .call m _ _ => m.name == "hashCode"
  | _ => false

/-- Whether the result of the statement can be reused. -/
def offersValue (s : Statement) : Bool := !s.ty.isVoid && !s.op.isStore

/-- Appends what the result of one statement offers for a type: the value itself, the elements of a
new array that are written before the use, or the fields of an object. -/
def pushCompatible (c : Cluster) (ty : Ty) (before : List Statement) (out : List Ref) :
    Statement × Nat → List Ref
  | (s, i) =>
    let value := s.output i
    if isHashCode s || !offersValue s then out
    else if let .array component := s.ty then
      if ty.isArray && c.isAssignable s.ty ty then out ++ [value]
      else match s.op with
        | .allocate length =>
          if c.isAssignable component ty then
            out ++ ((List.range length).filter (isInitialized before value)).map (.element value)
          else out
        | _ => out
    else if c.isAssignable s.ty ty && s.ty.isPrimitive == ty.isPrimitive then out ++ [value]
    else pushFields c (c.isAssignable · ty) maxFieldDepth value s.ty out

/-- The values before a position that can stand where a type is needed. -/
def findCompatible (p : Program) (c : Cluster) (ty : Ty) (position : Nat) (f : CandidateFilter) :
    List Ref :=
  let before := p.statements.take position
  (before.zipIdx.foldl (pushCompatible c ty before) []).filter (f.admits p)

/-! ## All values -/

/-- Appends all that the result of one statement offers. -/
def pushObjects (c : Cluster) (out : List Ref) : Statement × Nat → List Ref
  | (s, i) =>
    let value := s.output i
    if !offersValue s then out
    else match s.op with
      | .allocate length => out ++ (List.range length).map (.element value)
      | _ => pushFields c (fun _ => true) maxFieldDepth value s.ty (out ++ [value])

/-- All values before a position. -/
def objects (p : Program) (c : Cluster) (position : Nat) : List Ref :=
  (p.statements.take position).zipIdx.foldl (pushObjects c) []

/-- The last value from a position on that has a type. -/
def lastObject? (p : Program) (c : Cluster) (ty : Ty) (position : Nat) : Except Shortage Ref :=
  match (p.statements.zipIdx.drop position).reverse.find? fun (s, _) => c.isAssignable s.ty ty with
  | some (s, i) => .ok (s.output i)
  | none => .error (.noValue ty.render)

/-- Whether a value before a position has a type. -/
def hasObject (p : Program) (c : Cluster) (ty : Ty) (position : Nat) : Bool :=
  (p.statements.take position).any fun s => c.isAssignable s.ty ty

/-- Whether a value could be cast down to a type. -/
def hasCastable (p : Program) (c : Cluster) (ty : Ty) : Bool :=
  p.statements.any fun s => !s.ty.isVoid && c.isAssignable ty s.ty

end Program

end SuiteSearch
