import SuiteSearch.Cluster.Assignability
import SuiteSearch.Ty.Name

/-!
# Members of a cluster

What a program may invoke or read, and what a type offers.
-/

namespace SuiteSearch

/-- A member that a statement invokes or reads. -/
inductive Member
  | constructor (k : Constructor)
  | method (m : Method)
  | field (f : Field)
  deriving DecidableEq

namespace Member

/-- The type of the value that the member gives. -/
def produces : Member → Ty
  | .constructor k => k.declaring
  | .method m => m.returns
  | .field f => f.ty

/-- Types one after the other. -/
def renderTypes (types : List Ty) : String := ", ".intercalate (types.map Ty.render)

/-- A short description for people. -/
def signature : Member → String
  | .constructor k => s!"new {k.declaring.render}({renderTypes k.params})"
  | .method m => s!"{m.declaring.render}.{m.name}({renderTypes m.params})"
  | .field f => s!"{f.declaring.render}.{f.name}"

end Member

namespace Cluster

/-- The public instance fields of a type, those of supertypes included. -/
def accessibleFields (c : Cluster) : Ty → List Field
  | .named name => (c.hierarchy name).flatMap fun d =>
      (d.fields.filter fun f => f.isPublic && !f.isStatic).map d.fieldOf
  | _ => []

/-- The nearest method of a type with this name and these parameters. -/
def findMethod (c : Cluster) (ty : Ty) (name : String) (params : List Ty) : Option Method :=
  match ty with
  | .named a => (c.hierarchy a).findSome? fun d =>
      (d.methods.find? fun m => m.name == name && m.params == params).map d.methodOf
  | _ => none

/-- The public constructors of a type; none of an abstract one. -/
def constructors (c : Cluster) : Ty → List Constructor
  | .named name =>
    match c.find? name with
    | some d => if d.isAbstract then [] else d.constructors.map d.constructorOf
    | none => []
  | _ => []

/-- The members of one class: constructors, methods and public fields. -/
def membersOf (d : ClassDecl) : List Member :=
  (if d.isAbstract then []
    else d.constructors.map fun params => .constructor (d.constructorOf params))
    ++ d.methods.map (fun m => .method (d.methodOf m))
    ++ (d.fields.filter (·.isPublic)).map fun f => .field (d.fieldOf f)

/-- Every member that a program may use, class by class. -/
def members (c : Cluster) : List Member := c.classes.flatMap membersOf

/-- The classes with a constructor whose instances a type accepts. -/
def concreteSubtypes (c : Cluster) (ty : Ty) : List Ty :=
  ((c.classes.filter fun d => !d.isAbstract && !d.constructors.isEmpty).map ClassDecl.ty).filter
    (c.isAssignable · ty)

end Cluster

end SuiteSearch
