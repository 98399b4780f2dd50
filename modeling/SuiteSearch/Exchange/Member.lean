import SuiteSearch.Cluster.Members
import SuiteSearch.Exchange.Field

/-!
# Types and members as JSON

A type is exchanged as its text, a member as the list of its parts.
-/

namespace SuiteSearch.Exchange

open Json (Value)

/-! ## Reading -/

def asTy (v : Value) : Reading Ty := do Ty.parse (← asText v)

def ty (v : Value) (name : String) : Reading Ty := do asTy (← field v name)

def asField (v : Value) : Reading Field :=
  match v with
  | .array [d, n, t, s] => return ⟨← asTy d, ← asText n, ← asTy t, ← asBool s⟩
  | _ => .error (.shape "field")

def asMethod (v : Value) : Reading Method :=
  match v with
  | .array [d, n, ps, r, s] => return ⟨← asTy d, ← asText n, ← asList asTy ps, ← asTy r, ← asBool s⟩
  | _ => .error (.shape "method")

def asConstructor (v : Value) : Reading Constructor :=
  match v with
  | .array [d, ps] => return ⟨← asTy d, ← asList asTy ps⟩
  | _ => .error (.shape "constructor")

/-! ## Writing -/

def ofTy (t : Ty) : Value := str t.render

def ofField (f : Field) : Value :=
  .array [ofTy f.declaring, str f.name, ofTy f.ty, .bool f.isStatic]

def ofMethod (m : Method) : Value :=
  .array [ofTy m.declaring, str m.name, arr ofTy m.params, ofTy m.returns, .bool m.isStatic]

def ofConstructor (k : Constructor) : Value := .array [ofTy k.declaring, arr ofTy k.params]

def ofMember (m : Member) : Value :=
  let (kind, member) := match m with
    | .constructor k => ("constructor", ofConstructor k)
    | .method m => ("method", ofMethod m)
    | .field f => ("field", ofField f)
  obj [("k", str kind), ("member", member), ("signature", str m.signature),
    ("produces", ofTy m.produces)]

/-- A class in numbers. -/
def ofClass (d : ClassDecl) : Value :=
  obj [("abstract", .bool d.isAbstract), ("superclass", orNull str d.superclass),
    ("interfaces", arr str d.interfaces), ("constructors", arr (arr ofTy) d.constructors),
    ("methods", num d.methods.length), ("fields", num d.fields.length)]

end SuiteSearch.Exchange
