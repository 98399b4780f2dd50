import SuiteSearch.Decimal.Layout

/-!
# JSON values

The tree of a JSON document. Numbers keep their written form, objects keep the order and the
repetitions of their members. A text is `none` when an escape in it names half of a surrogate pair:
such a text may stand in a part of a document that is skipped, but it has no value.
-/

namespace SuiteSearch.Json

open Decimal (Numeral)

inductive Value
  | null
  | bool (b : Bool)
  | number (n : Numeral)
  | text (s : Option String)
  | array (items : List Value)
  | object (members : List (Option String × Value))

namespace Value

/-- A text. -/
def ofString (s : String) : Value := .text (some s)

/-- A natural number. -/
def ofNat (n : Nat) : Value := .number (Numeral.ofNat n)

/-- A number; a NaN or an infinity has no JSON form and is written `null`. -/
def ofFloat (x : Float) : Value :=
  match Binary64.decode x.toBits with
  | .finite d => .number (Decimal.Layout.document.numeral d)
  | _ => .null

/-- An object with the given members. -/
def record (members : List (String × Value)) : Value :=
  .object (members.map fun (name, v) => (some name, v))

end Value

end SuiteSearch.Json
