import SuiteSearch.Json.Token
import SuiteSearch.Json.Value

/-!
# Reading JSON

A document is one value and nothing after it. The tokens of a value are read by recursive descent;
the number of tokens bounds the depth.

    Value.parse? s = some v      s is a document whose tree is v
-/

namespace SuiteSearch.Json

namespace Value

mutual

/-- The value at the head of the tokens. -/
def readOne : Nat → List Token → Option (Value × List Token)
  | 0, _ => none
  | _ + 1, .null :: ts => some (.null, ts)
  | _ + 1, .bool b :: ts => some (.bool b, ts)
  | _ + 1, .number n :: ts => some (.number n, ts)
  | _ + 1, .text s :: ts => some (.text s, ts)
  | _ + 1, .openBracket :: .closeBracket :: ts => some (.array [], ts)
  | fuel + 1, .openBracket :: ts => do
    let (items, ts) ← readItems fuel ts
    return (.array items, ts)
  | _ + 1, .openBrace :: .closeBrace :: ts => some (.object [], ts)
  | fuel + 1, .openBrace :: ts => do
    let (members, ts) ← readMembers fuel ts
    return (.object members, ts)
  | _ + 1, _ => none

/-- The items of an array up to its closing bracket. -/
def readItems : Nat → List Token → Option (List Value × List Token)
  | 0, _ => none
  | fuel + 1, ts => do
    let (v, ts) ← readOne fuel ts
    match ts with
    | .comma :: ts =>
      let (items, ts) ← readItems fuel ts
      return (v :: items, ts)
    | .closeBracket :: ts => return ([v], ts)
    | _ => none

/-- The members of an object up to its closing brace. -/
def readMembers : Nat → List Token → Option (List (Option String × Value) × List Token)
  | 0, _ => none
  | fuel + 1, ts =>
    match ts with
    | .text name :: .colon :: ts => do
      let (v, ts) ← readOne fuel ts
      match ts with
      | .comma :: ts =>
        let (members, ts) ← readMembers fuel ts
        return ((name, v) :: members, ts)
      | .closeBrace :: ts => return ([(name, v)], ts)
      | _ => none
    | _ => none

end

/-- The value that the tokens spell, with none left over. -/
def ofTokens? (ts : List Token) : Option Value :=
  match readOne (2 * ts.length + 1) ts with
  | some (v, []) => some v
  | _ => none

/-- The value of a document. -/
def parse? (text : String) : Option Value := (Token.scan text.toList).bind ofTokens?

end Value

end SuiteSearch.Json
