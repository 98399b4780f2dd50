import SuiteSearch.Json.Value

/-!
# Taking JSON values apart

A decoder accepts the values of one shape and gives what they stand for. A record may be an object,
with its members in any order, or an array of its fields in their declared order; unknown members
are skipped and a known one may occur once.

A whole number is read exactly. A number read as a float keeps as many leading digits as fit into
64 bits and is then scaled by powers of ten, which can miss the nearest float by one unit.
-/

namespace SuiteSearch.Json

open Decimal (Numeral)

/-! ## Numbers -/

/-- Appends digits to a number as long as it fits into 64 bits; what does not fit is left over. -/
def absorb (n : Nat) : List Nat → Nat × List Nat
  | [] => (n, [])
  | d :: ds => if 10 * n + d < UInt64.size then absorb (10 * n + d) ds else (n, d :: ds)

/-- `x · 10 ^ e` in at most one step of `10 ^ 308` a time; none when it overflows. -/
def scaleTen (x : Float) (e : Int) : Option Float :=
  if e < -308 then
    if x == 0 then some x else scaleTen (x / Float.ofScientific 1 false 308) (e + 308)
  else if e < 0 then some (x / Float.ofScientific 1 false e.natAbs)
  else if e ≤ 308 then
    let scaled := x * Float.ofScientific 1 false e.toNat
    if scaled.isInf then none else some scaled
  else if x == 0 then some x else none
termination_by e.natAbs

/-- The float that a numeral is read as. -/
def floatOf? (n : Numeral) : Option Float :=
  let (head, restWhole) := absorb 0 n.whole
  let (significand, restFraction) := absorb head n.fraction
  let shift : Int := restWhole.length - (n.fraction.length - restFraction.length)
  let power := n.exponent.getD 0
  let magnitude :=
    if 0x80000000 ≤ power.natAbs then
      if significand ≠ 0 && 0 < power then none else some 0
    else scaleTen significand.toUInt64.toFloat (shift + power)
  magnitude.map fun x => if n.negative then -x else x

/-- The natural number that a numeral is, if it is below the bound. -/
def natOf? (bound : Nat) (n : Numeral) : Option Nat :=
  let value := Numeral.value 0 n.whole
  if n.isWhole && !n.negative && value < bound then some value else none

/-! ## Values -/

namespace Value

def nat? (bound : Nat) : Value → Option Nat
  | .number n => natOf? bound n
  | _ => none

/-- A natural number of 64 bits. -/
def word? : Value → Option Nat := nat? UInt64.size

def float? : Value → Option Float
  | .number n => floatOf? n
  | _ => none

def bool? : Value → Option Bool
  | .bool b => some b
  | _ => none

def string? : Value → Option String
  | .text s => s
  | _ => none

/-- A value that `null` stands in for. -/
def nullable? {α : Type} (f : Value → Option α) : Value → Option (Option α)
  | .null => some none
  | v => (f v).map some

def list? {α : Type} (f : Value → Option α) : Value → Option (List α)
  | .array items => items.mapM f
  | _ => none

/-- An object whose member names are free. -/
def pairs? {α : Type} (f : Value → Option α) : Value → Option (List (String × α))
  | .object members => members.mapM fun (name, v) => do return (← name, ← f v)
  | _ => none

/-- The only value of a name; none when it is missing, a failure when it occurs twice. -/
def onlyMember (members : List (Option String × Value)) (name : String) : Option (Option Value) :=
  match members.filter (·.1 == some name) with
  | [] => some none
  | [(_, v)] => some (some v)
  | _ => none

/-- The values of the fields of a record. -/
def fields? (names : List String) : Value → Option (List (Option Value))
  | .object members =>
    if members.any (·.1.isNone) then none else names.mapM (onlyMember members)
  | .array items =>
    if names.length < items.length then none
    else some (items.map some ++ List.replicate (names.length - items.length) none)
  | _ => none

end Value

/-- A field that has to be there. -/
def required {α : Type} (f : Value → Option α) : Option Value → Option α
  | some v => f v
  | none => none

/-- A field with a default. -/
def optional {α : Type} (default : α) (f : Value → Option α) : Option Value → Option α
  | some v => f v
  | none => some default

end SuiteSearch.Json
