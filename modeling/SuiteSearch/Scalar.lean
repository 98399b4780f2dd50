/-!
# Numbers that fractions are computed with

The few operations that annealing needs, so that it can be run on floats and studied on exact
numbers. A comparison with a NaN is false.
-/

namespace SuiteSearch

class Scalar (κ : Type) where
  ofNat : Nat → κ
  sub : κ → κ → κ
  mul : κ → κ → κ
  div : κ → κ → κ
  le : κ → κ → Bool
  lt : κ → κ → Bool
  /-- The least natural number that is no smaller; 0 for a NaN. -/
  ceil : κ → Nat

namespace Scalar

variable {κ : Type} [Scalar κ]

/-- The nearest number from 0 to 1; a NaN stays one. -/
def clampUnit (x : κ) : κ :=
  if lt x (ofNat 0) then ofNat 0 else if lt (ofNat 1) x then ofNat 1 else x

/-- The number, or 0 if it is not positive. -/
def positive (x : κ) : κ := if lt (ofNat 0) x then x else ofNat 0

/-- The greater of two numbers; of a number and a NaN, the number. -/
def larger (x y : κ) : κ := if lt x y || !le x x then y else x

/-- The smaller of two numbers; of a number and a NaN, the number. -/
def smaller (x y : κ) : κ := if lt y x || !le x x then y else x

instance : Scalar Float where
  ofNat n := n.toUInt64.toFloat
  sub := (· - ·)
  mul := (· * ·)
  div := (· / ·)
  le x y := x ≤ y
  lt x y := x < y
  ceil x := x.ceil.toUInt64.toNat

/-- A count as a number. -/
abbrev count (n : Nat) : Float := ofNat n

end Scalar

end SuiteSearch
