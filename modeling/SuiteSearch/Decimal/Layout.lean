import SuiteSearch.Decimal.Numeral
import SuiteSearch.Decimal.Shortest

/-!
# Written forms of a number

A layout says how the shortest digits of a number are set out: from which to which decimal exponent
of the leading digit the number is written with a point in place, whether a whole number keeps `.0`,
and whether a positive power of ten has a sign.

    source.render 0.1 = "0.1"      source.render 1e16 = "1e16"
    message.render 1.0 = "1"       message.render 1e16 = "10000000000000000"
    document.render 0.1 = "0.1"    document.render 1e16 = "1e+16"
-/

namespace SuiteSearch.Decimal

/-- The decisions of a written form. -/
structure Layout where
  /-- Least exponent of the leading digit that is written with the point in place. -/
  plainFrom : Option Int
  /-- Greatest exponent of the leading digit that is written with the point in place. -/
  plainTo : Option Int
  /-- Whether a whole number ends in `.0`. -/
  pointZero : Bool
  /-- Whether a positive power of ten has a sign. -/
  plus : Bool
  tie : Tie
  deriving DecidableEq, Repr

namespace Layout

/-- Numbers in the source text of a program. -/
def source : Layout := ⟨some (-4), some 15, true, false, .up⟩

/-- Numbers in messages: the point is always in place and whole numbers have none. -/
def message : Layout := ⟨none, none, false, false, .up⟩

/-- Numbers in documents. -/
def document : Layout := ⟨some (-5), some 15, true, true, .toEven⟩

/-- Whether a number with this exponent of the leading digit has its point in place. -/
def isPlain (l : Layout) (lead : Int) : Bool :=
  l.plainFrom.all (· ≤ lead) && l.plainTo.all (lead ≤ ·)

/-- Sets out `± digits · 10 ^ k`. -/
def place (l : Layout) (negative : Bool) (digits : List Nat) (k : Int) : Numeral :=
  let lead := (digits.length : Int) - 1 + k
  if l.isPlain lead then
    if 0 ≤ k then
      ⟨negative, digits ++ List.replicate k.toNat 0, if l.pointZero then [0] else [], none⟩
    else if 0 ≤ lead then
      ⟨negative, digits.take (lead.toNat + 1), digits.drop (lead.toNat + 1), none⟩
    else ⟨negative, [0], List.replicate (lead.natAbs - 1) 0 ++ digits, none⟩
  else ⟨negative, digits.take 1, digits.drop 1, some lead⟩

/-- The numeral of a finite value. -/
def numeral (l : Layout) (d : Dyadic) : Numeral :=
  let (n, k) := shortest l.tie d
  l.place d.negative (Numeral.digits n) k

/-- The text of a binary64 bit pattern. -/
def renderBits (l : Layout) (bits : UInt64) : String :=
  match Binary64.decode bits with
  | .nan => "NaN"
  | .infinite negative => if negative then "-inf" else "inf"
  | .finite d => String.ofList ((l.numeral d).render l.plus)

/-- The text of a number. -/
def render (l : Layout) (x : Float) : String := l.renderBits x.toBits

end Layout

end SuiteSearch.Decimal
