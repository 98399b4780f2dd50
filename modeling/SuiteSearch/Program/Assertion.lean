import SuiteSearch.Program.Reference
import SuiteSearch.Program.Literal

/-!
# Assertions

An assertion checks the value of a reference against what was observed.
-/

namespace SuiteSearch

/-- What is checked. -/
inductive Check
  | equals (value : Literal)
  | nullness (isNull : Bool)
  /-- A method without side effects returns the constant. -/
  | inspector (method : Method) (value : Literal)
  | field (f : Field) (value : Literal)
  | elements (values : List Literal)
  deriving DecidableEq

structure Assertion where
  source : Ref
  check : Check
  deriving DecidableEq

namespace Assertion

/-- The references that the assertion reads. -/
def reads (a : Assertion) : List Ref := a.source.additional.toList ++ [a.source]

/-- Changes the source. -/
def mapSource (f : Ref → Ref) (a : Assertion) : Assertion := ⟨f a.source, a.check⟩

def code (a : Assertion) : String :=
  let source := a.source.render
  match a.check with
  | .equals value => s!"assertEquals({value.code}, {source});"
  | .nullness true => s!"assertNull({source});"
  | .nullness false => s!"assertNotNull({source});"
  | .inspector method value => s!"assertEquals({value.code}, {source}.{method.name}());"
  | .field f value => s!"assertEquals({value.code}, {source}.{f.name});"
  | .elements values =>
    let items := ", ".intercalate (values.map Literal.code)
    "assertArrayEquals(new Object[] \x7b" ++ items ++ "\x7d, " ++ source ++ ");"

end Assertion

end SuiteSearch
