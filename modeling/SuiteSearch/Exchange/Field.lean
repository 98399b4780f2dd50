import SuiteSearch.Exchange.Refusal
import SuiteSearch.Json.Decoder
import SuiteSearch.Json.Token

/-!
# Fields of a request

A field that is missing and a field that is `null` are the same. Floats are exchanged as the
hexadecimal digits of their bits after `0x`, so that none is rounded on the way; all NaNs are
written alike.
-/

namespace SuiteSearch.Exchange

open Json (Value)

/-! ## Reading -/

def asText (v : Value) : Reading String := need "text" v.string?

def asNat (v : Value) : Reading Nat := need "nat" v.word?

def asBool (v : Value) : Reading Bool := need "bool" v.bool?

def asInt (v : Value) : Reading Int :=
  match v with
  | .number n =>
    let magnitude : Int := Decimal.Numeral.value 0 n.whole
    need "int" (if n.isWhole then some (if n.negative then -magnitude else magnitude) else none)
  | _ => .error (.shape "int")

def asList {α : Type} (f : Value → Reading α) (v : Value) : Reading (List α) :=
  match v with
  | .array items => items.mapM f
  | _ => .error (.shape "list")

def asPair {α β : Type} (f : Value → Reading α) (g : Value → Reading β) (v : Value) :
    Reading (α × β) :=
  match v with
  | .array [a, b] => return (← f a, ← g b)
  | _ => .error (.shape "pair")

/-- The number that hexadecimal digits write. -/
def ofHex? (digits : List Char) : Option Nat :=
  digits.foldlM (fun n c => (Json.Token.hexValue c).map (16 * n + ·)) 0

def asBits (v : Value) : Reading UInt64 := do
  let n ← need "float" (ofHex? ((← asText v).toList.drop 2))
  return n.toUInt64

def asFloat (v : Value) : Reading Float := return Float.ofBits (← asBits v)

/-! ## Fields -/

/-- A field that is there and not null. -/
def field? (v : Value) (name : String) : Option Value :=
  match v with
  | .object members =>
    match members.find? (·.1 == some name) with
    | some (_, .null) => none
    | some (_, x) => some x
    | none => none
  | _ => none

def field (v : Value) (name : String) : Reading Value := need name (field? v name)

/-- A field that may be left out. -/
def maybe {α : Type} (v : Value) (name : String) (f : Value → Reading α) : Reading (Option α) :=
  match field? v name with
  | some x => some <$> f x
  | none => .ok none

/-- A list that is empty when it is left out. -/
def many {α : Type} (v : Value) (name : String) (f : Value → Reading α) : Reading (List α) :=
  return (← maybe v name (asList f)).getD []

def text (v : Value) (name : String) : Reading String := do asText (← field v name)

def textOr (v : Value) (name default : String) : Reading String :=
  return (← maybe v name asText).getD default

def nat (v : Value) (name : String) : Reading Nat := do asNat (← field v name)

def natOr (v : Value) (name : String) (default : Nat) : Reading Nat :=
  return (← maybe v name asNat).getD default

def flagOr (v : Value) (name : String) (default : Bool) : Reading Bool :=
  return (← maybe v name asBool).getD default

/-- A flag that is off when it is left out. -/
def flag (v : Value) (name : String) : Reading Bool := flagOr v name false

/-! ## Writing -/

def str (s : String) : Value := .ofString s

def num (n : Nat) : Value := .ofNat n

def obj (members : List (String × Value)) : Value := .record members

def arr {α : Type} (f : α → Value) (items : List α) : Value := .array (items.map f)

def orNull {α : Type} (f : α → Value) : Option α → Value
  | some a => f a
  | none => .null

def ofBits (bits : UInt64) : Value :=
  if Binary64.isNaN bits then str "nan"
  else
    let digits := Nat.toDigits 16 bits.toNat
    str ("0x" ++ String.ofList (List.replicate (16 - digits.length) '0' ++ digits))

def ofFloat (x : Float) : Value := ofBits x.toBits

end SuiteSearch.Exchange
