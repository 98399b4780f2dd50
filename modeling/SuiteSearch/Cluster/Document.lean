import SuiteSearch.Cluster.Basic
import SuiteSearch.Ty.Name
import SuiteSearch.Json.Decoder
import SuiteSearch.Json.Reader
import SuiteSearch.Json.Writer

/-!
# Cluster documents

A cluster is written as a JSON document with one record a class. Types stand as their names. When a
document is read, only the names of classes, methods and fields and the types of fields have to be
there; a method without a type returns no value and a field is public unless it says otherwise.

    ofDocument? c.document = ok c      for a cluster whose types are written types
-/

namespace SuiteSearch

open Json (Value required optional)

/-! ## Writing -/

def Ty.toValue (t : Ty) : Value := .ofString t.render

def Ty.listValue (types : List Ty) : Value := .array (types.map Ty.toValue)

def MethodDecl.toValue (m : MethodDecl) : Value :=
  .record [("name", .ofString m.name), ("params", Ty.listValue m.params),
    ("returns", m.returns.toValue), ("is_static", .bool m.isStatic)]

def FieldDecl.toValue (f : FieldDecl) : Value :=
  .record [("name", .ofString f.name), ("type", f.ty.toValue), ("is_static", .bool f.isStatic),
    ("public", .bool f.isPublic)]

def ClassDecl.toValue (d : ClassDecl) : Value :=
  .record [("name", .ofString d.name),
    ("superclass", match d.superclass with | none => .null | some s => .ofString s),
    ("interfaces", .array (d.interfaces.map .ofString)),
    ("is_abstract", .bool d.isAbstract),
    ("constructors", .array (d.constructors.map Ty.listValue)),
    ("methods", .array (d.methods.map MethodDecl.toValue)),
    ("fields", .array (d.fields.map FieldDecl.toValue))]

def Cluster.toValue (c : Cluster) : Value :=
  .record [("classes", .array (c.classes.map ClassDecl.toValue))]

/-- The document of a cluster. -/
def Cluster.document (c : Cluster) : String := c.toValue.pretty

/-! ## Reading -/

def Ty.ofValue? (v : Value) : Option Ty := v.string?.bind fun s => (Ty.parse s).toOption

def MethodDecl.ofValue? (v : Value) : Option MethodDecl :=
  match v.fields? ["name", "params", "returns", "is_static"] with
  | some [name, params, returns, isStatic] => do
    return ⟨← required Value.string? name, ← optional [] (Value.list? Ty.ofValue?) params,
      ← optional Ty.void Ty.ofValue? returns, ← optional false Value.bool? isStatic⟩
  | _ => none

def FieldDecl.ofValue? (v : Value) : Option FieldDecl :=
  match v.fields? ["name", "type", "is_static", "public"] with
  | some [name, ty, isStatic, isPublic] => do
    return ⟨← required Value.string? name, ← required Ty.ofValue? ty,
      ← optional false Value.bool? isStatic, ← optional true Value.bool? isPublic⟩
  | _ => none

def ClassDecl.ofValue? (v : Value) : Option ClassDecl :=
  match v.fields? ["name", "superclass", "interfaces", "is_abstract", "constructors", "methods",
      "fields"] with
  | some [name, superclass, interfaces, isAbstract, constructors, methods, fields] => do
    return ⟨← required Value.string? name,
      ← optional none (Value.nullable? Value.string?) superclass,
      ← optional [] (Value.list? Value.string?) interfaces,
      ← optional false Value.bool? isAbstract,
      ← optional [] (Value.list? (Value.list? Ty.ofValue?)) constructors,
      ← optional [] (Value.list? MethodDecl.ofValue?) methods,
      ← optional [] (Value.list? FieldDecl.ofValue?) fields⟩
  | _ => none

/-- The declarations of a document. -/
def ClassDecl.listOfValue? (v : Value) : Option (List ClassDecl) :=
  match v.fields? ["classes"] with
  | some [classes] => required (Value.list? ClassDecl.ofValue?) classes
  | _ => none

def Cluster.ofValue? (v : Value) : Except Error Cluster :=
  match ClassDecl.listOfValue? v with
  | none => .error .serialization
  | some classes => (Cluster.ofDistinct? classes).mapError .configuration

/-- The cluster of a document. -/
def Cluster.ofDocument? (text : String) : Except Error Cluster :=
  match Value.parse? text with
  | none => .error .serialization
  | some v => Cluster.ofValue? v

end SuiteSearch
