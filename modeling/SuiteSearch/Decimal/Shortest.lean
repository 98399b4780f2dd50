import SuiteSearch.Decimal.Binary64

/-!
# The shortest decimal that reads back

Among the decimals that lie in the interval of numbers rounding to a binary64 value, the one with
the fewest digits is chosen; of two with as few digits the closer one, and of two as close the one
that the tie rule names.

    shortest tie d = (digits, e)   stands for   digits · 10 ^ e
-/

namespace SuiteSearch.Decimal

/-- Which of two equally close neighbours is taken. -/
inductive Tie
  | toEven
  | up
  deriving DecidableEq, Repr

/-- A positive number held exactly as a quotient. -/
structure Quotient where
  num : Nat
  den : Nat
  deriving DecidableEq, Repr

namespace Quotient

/-- The quotient times `2 ^ k`. -/
def scaleTwo (x : Quotient) (k : Int) : Quotient :=
  if k < 0 then ⟨x.num, x.den <<< k.natAbs⟩ else ⟨x.num <<< k.toNat, x.den⟩

/-- The quotient divided by `10 ^ k`. -/
def unscaleTen (x : Quotient) (k : Int) : Quotient :=
  if k < 0 then ⟨x.num * Nat.pow 10 k.natAbs, x.den⟩ else ⟨x.num, x.den * Nat.pow 10 k.toNat⟩

/-- Whether the quotient is at least `10 ^ k`. -/
def atLeastTen (x : Quotient) (k : Int) : Bool :=
  (x.unscaleTen k).den ≤ (x.unscaleTen k).num

/-- The exponent `k` with `10 ^ k ≤ x < 10 ^ (k + 1)`, started from the binary size of `x`. -/
def leadingExponent (x : Quotient) : Int :=
  let guess := ((x.num.log2 : Int) - (x.den.log2 : Int)) * 30103 / 100000
  if x.atLeastTen (guess + 1) then guess + 1
  else if x.atLeastTen guess then guess
  else guess - 1

end Quotient

/-- The numbers that round to a value: four times the value and the two ends, over `2 ^ exponent`.
-/
structure Rounding where
  low : Nat
  value : Nat
  high : Nat
  closed : Bool
  exponent : Int

/-- The interval of a value; below a power of two the gap is half as wide. -/
def rounding (d : Dyadic) : Rounding where
  low := 4 * d.mantissa - (if d.mantissa = 0x10000000000000 ∧ -1074 < d.exponent then 1 else 2)
  value := 4 * d.mantissa
  high := 4 * d.mantissa + 2
  closed := d.mantissa % 2 = 0
  exponent := d.exponent - 2

namespace Rounding

/-- Whether `n · 10 ^ k` lies in the interval. -/
def admits (r : Rounding) (k : Int) (n : Nat) : Bool :=
  let low := ((⟨r.low, 1⟩ : Quotient).scaleTwo r.exponent).unscaleTen k
  let high := ((⟨r.high, 1⟩ : Quotient).scaleTwo r.exponent).unscaleTen k
  if r.closed then low.num ≤ n * low.den && n * high.den ≤ high.num
  else low.num < n * low.den && n * high.den < high.num

/-- The neighbour of the value on the grid of step `10 ^ k` that reads back and is the closer one.
-/
def nearest? (r : Rounding) (tie : Tie) (k : Int) : Option Nat :=
  let x := ((⟨r.value, 1⟩ : Quotient).scaleTwo r.exponent).unscaleTen k
  let below := x.num / x.den
  let rest := x.num % x.den
  let above := below + 1
  match r.admits k below, r.admits k above with
  | false, false => none
  | true, false => some below
  | false, true => some above
  | true, true =>
    if 2 * rest < x.den then some below
    else if x.den < 2 * rest then some above
    else match tie with
      | .up => some above
      | .toEven => some (if below % 2 = 0 then below else above)

end Rounding

/-- Moves factors of ten from the digits into the exponent. -/
def dropZeros : Nat → Nat → Int → Nat × Int
  | 0, n, k => (n, k)
  | fuel + 1, n, k => if n % 10 = 0 then dropZeros fuel (n / 10) (k + 1) else (n, k)

/-- The digits and the power of ten of the shortest decimal; `(0, 0)` for zero. -/
def shortest (tie : Tie) (d : Dyadic) : Nat × Int :=
  if d.mantissa = 0 then (0, 0)
  else
    let r := rounding d
    let lead := ((⟨d.mantissa, 1⟩ : Quotient).scaleTwo d.exponent).leadingExponent
    let found := (List.range 17).findSome? fun (i : Nat) =>
      (r.nearest? tie (lead - i)).map (·, lead - i)
    match found with
    | some (n, k) => dropZeros 18 n k
    | none => (0, 0)

end SuiteSearch.Decimal
