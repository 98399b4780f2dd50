import SuiteSearch.Decimal.Numeral

/-!
# JSON tokens

Cutting a document into tokens. Blanks between tokens are the four that JSON names. A numeral has no
leading zero and at least one digit after a point or an exponent mark; a text holds no control
character and only the escapes that JSON names.

    scan cs = some ts      cs is the tokens ts with blanks between them
-/

namespace SuiteSearch.Json

open Decimal (Numeral)

inductive Token
  | openBrace
  | closeBrace
  | openBracket
  | closeBracket
  | colon
  | comma
  | null
  | bool (b : Bool)
  | number (n : Numeral)
  | text (s : Option String)
  deriving DecidableEq, Repr

namespace Token

/-! ## Numerals -/

def isDigit (c : Char) : Bool := '0' ≤ c && c ≤ '9'

def digitValue (c : Char) : Nat := c.toNat - 48

/-- Digits at the head of a text, and what follows them. -/
def spanDigits (cs : List Char) : List Nat × List Char :=
  ((cs.takeWhile isDigit).map digitValue, cs.dropWhile isDigit)

/-- A digit sequence without a leading zero. -/
def scanWhole (cs : List Char) : Option (List Nat × List Char) :=
  match spanDigits cs with
  | ([], _) => none
  | (0 :: _ :: _, _) => none
  | (ds, rest) => some (ds, rest)

/-- An optional point with digits after it. -/
def scanFraction : List Char → Option (List Nat × List Char)
  | '.' :: cs =>
    match spanDigits cs with
    | ([], _) => none
    | (ds, rest) => some (ds, rest)
  | cs => some ([], cs)

/-- The digits of an exponent, after its sign. -/
def scanExponentDigits (negative : Bool) (cs : List Char) : Option (Option Int × List Char) :=
  match spanDigits cs with
  | ([], _) => none
  | (ds, rest) =>
    let e : Int := Numeral.value 0 ds
    some (some (if negative then -e else e), rest)

/-- An optional exponent. -/
def scanExponent : List Char → Option (Option Int × List Char)
  | c :: cs =>
    if c = 'e' || c = 'E' then
      match cs with
      | '+' :: ds => scanExponentDigits false ds
      | '-' :: ds => scanExponentDigits true ds
      | ds => scanExponentDigits false ds
    else some (none, c :: cs)
  | [] => some (none, [])

/-- A numeral after its sign. -/
def scanNumeral (negative : Bool) (cs : List Char) : Option (Token × List Char) := do
  let (whole, cs) ← scanWhole cs
  let (fraction, cs) ← scanFraction cs
  let (exponent, cs) ← scanExponent cs
  return (.number ⟨negative, whole, fraction, exponent⟩, cs)

/-! ## Texts -/

def hexValue (c : Char) : Option Nat :=
  if isDigit c then some (c.toNat - 48)
  else if 'a' ≤ c && c ≤ 'f' then some (c.toNat - 87)
  else if 'A' ≤ c && c ≤ 'F' then some (c.toNat - 55)
  else none

/-- The 16-bit unit that four hexadecimal digits name. -/
def hexUnit (a b c d : Char) : Option Nat := do
  let a ← hexValue a
  let b ← hexValue b
  let c ← hexValue c
  let d ← hexValue d
  return ((a * 16 + b) * 16 + c) * 16 + d

def isHighUnit (n : Nat) : Bool := 0xD800 ≤ n && n < 0xDC00

def isLowUnit (n : Nat) : Bool := 0xDC00 ≤ n && n < 0xE000

/-- The character that a surrogate pair names. -/
def pairChar (high low : Nat) : Char :=
  Char.ofNat (0x10000 + (high - 0xD800) * 0x400 + (low - 0xDC00))

/-- The character of a two-character escape. -/
def namedEscape : Char → Option Char
  | '"' => some '"'
  | '\\' => some '\\'
  | '/' => some '/'
  | 'b' => some '\x08'
  | 'f' => some '\x0c'
  | 'n' => some '\n'
  | 'r' => some '\r'
  | 't' => some '\t'
  | _ => none

/-- The rest of a text whose opening quote has been read; `done` holds what was read, last first,
or nothing once half a surrogate pair was met. -/
def scanText (done : Option (List Char)) : List Char → Option (Option String × List Char)
  | '"' :: cs => some (done.map fun d => String.ofList d.reverse, cs)
  | '\\' :: 'u' :: a :: b :: c :: d :: cs =>
    match hexUnit a b c d with
    | none => none
    | some high =>
      if isHighUnit high then
        match cs with
        | '\\' :: 'u' :: a' :: b' :: c' :: d' :: cs' =>
          match hexUnit a' b' c' d' with
          | none => none
          | some low =>
            if isLowUnit low then scanText (done.map (pairChar high low :: ·)) cs'
            else scanText none ('\\' :: 'u' :: a' :: b' :: c' :: d' :: cs')
        | cs => scanText none cs
      else if isLowUnit high then scanText none cs
      else scanText (done.map (Char.ofNat high :: ·)) cs
  | '\\' :: c :: cs =>
    match namedEscape c with
    | none => none
    | some e => scanText (done.map (e :: ·)) cs
  | c :: cs => if c.toNat < 0x20 then none else scanText (done.map (c :: ·)) cs
  | [] => none
termination_by cs => cs.length

/-! ## Documents -/

def isSpace (c : Char) : Bool := c = ' ' || c = '\n' || c = '\t' || c = '\r'

/-- The token at the head of a text without leading blanks. -/
def scanOne : List Char → Option (Token × List Char)
  | '{' :: cs => some (.openBrace, cs)
  | '}' :: cs => some (.closeBrace, cs)
  | '[' :: cs => some (.openBracket, cs)
  | ']' :: cs => some (.closeBracket, cs)
  | ':' :: cs => some (.colon, cs)
  | ',' :: cs => some (.comma, cs)
  | 'n' :: 'u' :: 'l' :: 'l' :: cs => some (.null, cs)
  | 't' :: 'r' :: 'u' :: 'e' :: cs => some (.bool true, cs)
  | 'f' :: 'a' :: 'l' :: 's' :: 'e' :: cs => some (.bool false, cs)
  | '"' :: cs => (scanText (some []) cs).map fun (s, rest) => (.text s, rest)
  | '-' :: cs => scanNumeral true cs
  | cs => scanNumeral false cs

/-- All tokens of a text, read in at most `fuel` steps. -/
def scanAll : Nat → List Char → Option (List Token)
  | 0, _ => none
  | fuel + 1, cs =>
    match cs.dropWhile isSpace with
    | [] => some []
    | c :: rest =>
      match scanOne (c :: rest) with
      | none => none
      | some (t, rest) => (scanAll fuel rest).map (t :: ·)

/-- All tokens of a text; every token takes a character, so the length bounds the steps. -/
def scan (cs : List Char) : Option (List Token) := scanAll (cs.length + 1) cs

end Token

end SuiteSearch.Json
