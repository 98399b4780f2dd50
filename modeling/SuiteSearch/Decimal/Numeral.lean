/-!
# Written numbers

A numeral is the parts of a number as they are written: a sign, the digits before and after the
point, and a power of ten. No fraction digit means no point.

    render plus ⟨true, [1], [5], some (-3)⟩ = "-1.5e-3"
    render true ⟨false, [1], [], some 16⟩ = "1e+16"
-/

namespace SuiteSearch.Decimal

/-- The parts of a written number. -/
structure Numeral where
  negative : Bool
  whole : List Nat
  fraction : List Nat
  exponent : Option Int
  deriving DecidableEq, Repr

namespace Numeral

/-- The character of a decimal digit. -/
def digitChar (d : Nat) : Char := Char.ofNat (48 + d)

/-- The decimal digits of a number, most significant first. -/
def digits (n : Nat) : List Nat :=
  if n < 10 then [n] else digits (n / 10) ++ [n % 10]

/-- The number with the given digits, put after those of `start`. -/
def value (start : Nat) (ds : List Nat) : Nat := ds.foldl (fun n d => 10 * n + d) start

/-- A natural number written in full. -/
def ofNat (n : Nat) : Numeral := ⟨false, digits n, [], none⟩

/-- An integer written in full. -/
def ofInt (n : Int) : Numeral := ⟨n < 0, digits n.natAbs, [], none⟩

/-- Whether the numeral has neither a fraction nor a power of ten. -/
def isWhole (n : Numeral) : Bool := n.fraction.isEmpty && n.exponent.isNone

/-- The power of ten; `plus` tells whether a positive one has a sign. -/
def renderExponent (plus : Bool) (e : Int) : List Char :=
  'e' :: (if e < 0 then ['-'] else if plus then ['+'] else []) ++ (digits e.natAbs).map digitChar

def render (plus : Bool) (n : Numeral) : List Char :=
  (if n.negative then ['-'] else []) ++ n.whole.map digitChar
    ++ (if n.fraction.isEmpty then [] else '.' :: n.fraction.map digitChar)
    ++ (match n.exponent with
        | none => []
        | some e => renderExponent plus e)

end Numeral

end SuiteSearch.Decimal
