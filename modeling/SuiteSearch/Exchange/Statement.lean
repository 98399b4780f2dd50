import SuiteSearch.Exchange.Member
import SuiteSearch.Program.Statement

/-!
# Statements as JSON

A reference is exchanged as its base and the path of the steps from there, a statement by the letter
of its kind and its parts. A statement that is read may state its declared type and its assertions;
both are applied after it is made.
-/

namespace SuiteSearch.Exchange

open Json (Value)

/-! ## References -/

/-- Goes one step on from a reference. -/
def stepFrom (r : Ref) (v : Value) : Reading Ref :=
  match field? v "i", field? v "f" with
  | some i, _ => return .element r (← asNat i)
  | _, some f => return .field r (← asField f)
  | _, _ => .error (.shape "path")

def asRef (v : Value) : Reading Ref := do
  let base : Ref ← match field? v "v", field? v "n" with
    | some p, _ => pure (.value (← asNat p))
    | _, some p => pure (.null (← asNat p))
    | _, _ => pure .dangling
  (← many v "path" pure).foldlM stepFrom base

def ref (v : Value) (name : String) : Reading Ref := do asRef (← field v name)

/-- The base of a reference and the steps from there. -/
def refParts : Ref → (String × Value) × List Value
  | .value p => (("v", num p), [])
  | .null p => (("n", num p), [])
  | .dangling => (("dangling", .bool true), [])
  | .field s f => let (b, path) := refParts s; (b, path ++ [obj [("f", ofField f)]])
  | .element a i => let (b, path) := refParts a; (b, path ++ [obj [("i", num i)]])

def ofRef (r : Ref) : Value :=
  match refParts r with
  | (b, []) => obj [b]
  | (b, path) => obj [b, ("path", .array path)]

/-! ## Literals -/

def asLiteral (v : Value) : Reading Literal :=
  match field? v "b", field? v "i", field? v "f", field? v "c", field? v "s" with
  | some b, _, _, _, _ => return .bool (← asBool b)
  | _, some i, _, _, _ => return .int (← asInt i)
  | _, _, some f, _, _ => return .float (← asBits f)
  | _, _, _, some c, _ => do
    match (← asText c).toList with
    | [c] => return .char c
    | _ => .error (.shape "char")
  | _, _, _, _, some s => return .text (← asText s)
  | _, _, _, _, _ => return .null

def literal (v : Value) (name : String) : Reading Literal := do asLiteral (← field v name)

def ofLiteral : Literal → Value
  | .null => obj [("null", .bool true)]
  | .bool b => obj [("b", .bool b)]
  | .int n => obj [("i", .number (Decimal.Numeral.ofInt n))]
  | .float bits => obj [("f", ofBits bits)]
  | .char c => obj [("c", str (String.ofList [c]))]
  | .text s => obj [("s", str s)]

/-- A literal beside its source text. -/
def ofLiteralCode (l : Literal) : Value := .array [ofLiteral l, str l.code]

/-! ## Assertions -/

def asAssertion (v : Value) : Reading Assertion := do
  let source ← ref v "source"
  let check : Check ← match ← text v "a" with
    | "primitive" => pure (.equals (← literal v "value"))
    | "null" => pure (.nullness (← asBool (← field v "is_null")))
    | "inspector" => pure (.inspector (← asMethod (← field v "method")) (← literal v "value"))
    | "field" => pure (.field (← asField (← field v "field")) (← literal v "value"))
    | "array" => pure (.elements (← asList asLiteral (← field v "values")))
    | other => .error (.shape other)
  return ⟨source, check⟩

def ofAssertion (a : Assertion) : Value :=
  let (kind, parts) := match a.check with
    | .equals v => ("primitive", [("value", ofLiteral v)])
    | .nullness b => ("null", [("is_null", .bool b)])
    | .inspector m v => ("inspector", [("method", ofMethod m), ("value", ofLiteral v)])
    | .field f v => ("field", [("field", ofField f), ("value", ofLiteral v)])
    | .elements vs => ("array", [("values", arr ofLiteral vs)])
  obj (("a", str kind) :: ("source", ofRef a.source) :: parts)

/-! ## Statements -/

def asMock (v : Value) : Reading MockKind := do
  match ← asText v with
  | "functional" => return .functional
  | "abstract" => return .abstractClass
  | other => .error (.shape other)

def ofMock : MockKind → Value
  | .functional => str "functional"
  | .abstractClass => str "abstract"

/-- A statement with the type that it declares by its kind. -/
def asBareStatement (v : Value) : Reading Statement := do
  match ← text v "k" with
  | "new" =>
    let k ← asConstructor (← field v "ctor")
    return .ofOperation (.construct k (← many v "args" asRef) (← maybe v "mock" asMock)) k.declaring
  | "mock" => return .mock (← ty v "type") (← asMock (← field v "mock"))
  | "call" =>
    return .call (← asMethod (← field v "method")) (← maybe v "callee" asRef)
      (← many v "args" asRef)
  | "field" => return .read (← asField (← field v "field")) (← maybe v "source" asRef)
  | "array" => return .allocate (← ty v "component") (← nat v "length")
  | "store" =>
    return .store (← ref v "array") (← nat v "index") (← ref v "value") (← ty v "component")
  | "assign" => return .ofOperation (.store (← ref v "target") (← ref v "value")) (← ty v "type")
  | "lit" => return .literal (← literal v "value") (← ty v "type")
  | "null" => return .null (← ty v "type")
  | other => .error (.shape other)

def asStatement (v : Value) : Reading Statement := do
  let s ← asBareStatement v
  let s := match ← maybe v "as" asTy with
    | some t => s.withTy t
    | none => s
  return (← many v "asserts" asAssertion).foldl (fun s a => (s.addAssertion a).1) s

def statement (v : Value) (name : String) : Reading Statement := do asStatement (← field v name)

def ofOperation : Operation → List (String × Value)
  | .construct k args mock =>
    [("k", str "new"), ("ctor", ofConstructor k), ("args", arr ofRef args),
      ("mock", orNull ofMock mock)]
  | .call m callee args =>
    [("k", str "call"), ("method", ofMethod m), ("callee", orNull ofRef callee),
      ("args", arr ofRef args)]
  | .read f source => [("k", str "field"), ("field", ofField f), ("source", orNull ofRef source)]
  | .allocate n => [("k", str "array"), ("length", num n)]
  | .store target value => [("k", str "assign"), ("target", ofRef target), ("value", ofRef value)]
  | .literal v => [("k", str "lit"), ("value", ofLiteral v)]

def ofStatement (s : Statement) : Value :=
  obj (ofOperation s.op ++ [("type", ofTy s.ty), ("asserts", arr ofAssertion s.assertions)])

/-- What can be asked of a statement at a position. -/
def statementFields (s : Statement) (i : Nat) (probes : List Ref) : List (String × Value) :=
  [("stmt", ofStatement s), ("code", str (s.code i)), ("output", ofRef (s.output i)),
    ("reads", arr ofRef s.reads), ("refs", arr ofRef (s.variableReferences i)),
    ("references", arr (fun r => .bool (s.references i r)) probes), ("valid", .bool (s.isValid i)),
    ("mock", orNull ofMock s.op.mock), ("literal", .bool s.op.isLiteral),
    ("store", .bool s.op.isStore)]

end SuiteSearch.Exchange
