import SuiteSearch.Ty.Primitive

/-!
# Types

The static types of the unit under test: no value, a primitive, a named class or interface, or an
array. Classes are told apart by their full name; boxes, texts and the root class are recognised by
the simple name, the part after the last point.
-/

namespace SuiteSearch

inductive Ty
  | void
  | primitive (p : Primitive)
  | named (name : String)
  | array (component : Ty)
  deriving DecidableEq, Repr

/-- The part of a class name after its last point. -/
def simpleName (name : String) : String :=
  String.ofList (name.toList.reverse.takeWhile (· ≠ '.')).reverse

namespace Ty

def int : Ty := .primitive .int

def boolean : Ty := .primitive .boolean

def string : Ty := .named "String"

def isVoid : Ty → Bool
  | .void => true
  | _ => false

def isPrimitive : Ty → Bool
  | .primitive _ => true
  | _ => false

def isArray : Ty → Bool
  | .array _ => true
  | _ => false

/-- The type's name without its qualifier and without array brackets. -/
def simple : Ty → String
  | .void => "void"
  | .primitive p => p.keyword
  | .named name => simpleName name
  | .array component => component.simple

/-- Whether the type is a class of this simple name. -/
def isNamed (simple : String) : Ty → Bool
  | .named name => simpleName name == simple
  | _ => false

def isString (t : Ty) : Bool := t.isNamed "String"

/-- Whether the type is the root of all classes. -/
def isObject (t : Ty) : Bool := t.isNamed "Object"

/-- The primitive that the type boxes. -/
def unboxed : Ty → Option Primitive
  | .named name => Primitive.ofWrapper? (simpleName name)
  | _ => none

def isWrapper (t : Ty) : Bool := t.unboxed.isSome

/-- The primitive that values of the type hold, boxed or not. -/
def underlying : Ty → Option Primitive
  | .primitive p => some p
  | t => t.unboxed

def component : Ty → Option Ty
  | .array c => some c
  | _ => none

/-- The innermost component of an array, or the type itself. -/
def element : Ty → Ty
  | .array c => c.element
  | t => t

/-- Lists no value first, then the primitives, the classes by name, and the arrays. -/
def precedes : Ty → Ty → Bool
  | .void, .void => false
  | .void, _ => true
  | .primitive p, .primitive q => p.rank < q.rank
  | .primitive _, .void => false
  | .primitive _, _ => true
  | .named a, .named b => a < b
  | .named _, .array _ => true
  | .named _, _ => false
  | .array a, .array b => a.precedes b
  | .array _, _ => false

end Ty

/-! ## Members of classes -/

/-- A method by its full signature. -/
structure Method where
  declaring : Ty
  name : String
  params : List Ty
  returns : Ty
  isStatic : Bool
  deriving DecidableEq, Repr

/-- A constructor by the class it makes and its parameters. -/
structure Constructor where
  declaring : Ty
  params : List Ty
  deriving DecidableEq, Repr

/-- A field. -/
structure Field where
  declaring : Ty
  name : String
  ty : Ty
  isStatic : Bool
  deriving DecidableEq, Repr

end SuiteSearch
