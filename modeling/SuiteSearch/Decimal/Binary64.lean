/-!
# Binary64 values taken apart

A finite binary64 value is `± mantissa · 2 ^ exponent` with a mantissa below `2 ^ 53`. For a text with
a fixed number of decimal places the exact value is rounded; halfway cases go to the even digit.

    Binary64.decode 0x3FF0000000000000 = finite + 2^52 · 2^(-52)
    Dyadic.ceil d is the least natural number that is no smaller than the value
    fixed 1 12.25 = "12.2"     fixed 3 0.0005 = "0.001" (the stored value lies above a half)
-/

namespace SuiteSearch

/-- The number `± mantissa · 2 ^ exponent`. -/
structure Dyadic where
  negative : Bool
  mantissa : Nat
  exponent : Int
  deriving DecidableEq, Repr

/-- What a binary64 bit pattern denotes. -/
inductive Binary64
  | nan
  | infinite (negative : Bool)
  | finite (value : Dyadic)
  deriving DecidableEq, Repr

namespace Binary64

/-- Reads sign, exponent and fraction off the bits; exponent 0 marks the subnormal values. -/
def decode (bits : UInt64) : Binary64 :=
  let negative := bits.toNat / 0x8000000000000000 == 1
  let biased : Nat := bits.toNat / 0x10000000000000 % 0x800
  let fraction : Nat := bits.toNat % 0x10000000000000
  if biased = 2047 then (if fraction = 0 then .infinite negative else .nan)
  else if biased = 0 then .finite ⟨negative, fraction, -1074⟩
  else .finite ⟨negative, 0x10000000000000 + fraction, (biased : Int) - 1075⟩

/-- Whether a bit pattern is one of the NaNs. -/
def isNaN (bits : UInt64) : Bool := decode bits == .nan

end Binary64

namespace Dyadic

/-- Numerator and denominator of the magnitude. -/
def ratio (d : Dyadic) : Nat × Nat :=
  if d.exponent < 0 then (d.mantissa, 1 <<< d.exponent.natAbs)
  else (d.mantissa <<< d.exponent.toNat, 1)

/-- The least natural number that is no smaller than the value; 0 for a negative one. -/
def ceil (d : Dyadic) : Nat :=
  if d.negative then 0 else (d.ratio.1 + d.ratio.2 - 1) / d.ratio.2

end Dyadic

/-! ## A fixed number of decimal places -/

namespace Decimal

/-- The quotient rounded to the nearest natural number, halves to the even one. -/
def roundHalfEven (num den : Nat) : Nat :=
  let below := num / den
  let rest := num % den
  if 2 * rest < den then below
  else if den < 2 * rest then below + 1
  else if below % 2 = 0 then below else below + 1

/-- Digits with a point before the last `places` of them. -/
def withPlaces (places n : Nat) : List Char :=
  let digits := Nat.toDigits 10 n
  let padded := List.replicate (places + 1 - digits.length) '0' ++ digits
  let whole := padded.take (padded.length - places)
  if places = 0 then whole else whole ++ '.' :: padded.drop (padded.length - places)

/-- The text of a number with a fixed number of decimal places. -/
def fixed (places : Nat) (x : Float) : String :=
  match Binary64.decode x.toBits with
  | .nan => "NaN"
  | .infinite negative => if negative then "-inf" else "inf"
  | .finite d =>
    let text := withPlaces places (roundHalfEven (d.ratio.1 * Nat.pow 10 places) d.ratio.2)
    String.ofList (if d.negative then '-' :: text else text)

end Decimal

end SuiteSearch
