import SuiteSearch.Error

/-!
# Draws

A source gives words of 32 and of 64 bits. A value of type `Draw ω α` takes words from the world `ω`
it is given and returns an `α` with the world that is left; an act may end in a fault besides.

A number below `n` is the upper half of a word times `n`. Words whose lower half lies beyond a bound
are drawn again, so that no number is preferred. A rejection loop has no bound of its own and ends
with probability one only. Here it has one: after 65536 rejections the next word is taken as it is,
so that every draw ends.

    the number drawn is below n for every word (reduced_lt)
-/

namespace SuiteSearch

/-! ## Words -/

/-- A world that words can be taken from. -/
class WordSource (ω : Type) where
  next32 : ω → UInt32 × ω
  next64 : ω → UInt64 × ω

/-- What can be drawn from a world. -/
abbrev Draw (ω α : Type) := StateM ω α

namespace Draw

variable {ω : Type} [WordSource ω]

/-- A number of 32 bits. -/
def small : Draw ω Nat := fun w => let (x, w) := WordSource.next32 w; (x.toNat, w)

/-- A number of 64 bits. -/
def large : Draw ω Nat := fun w => let (x, w) := WordSource.next64 w; (x.toNat, w)

end Draw

/-! ## Chances -/

/-- How likely something is. -/
inductive Chance
  | always
  /-- Of all words of 64 bits this many say yes. -/
  | below (threshold : Nat)
  deriving DecidableEq, Repr

namespace Chance

/-- The chance of a probability; one outside `[0, 1]` is none. -/
def ofFloat? (p : Float) : Except Fault Chance :=
  if p == 1 then .ok .always
  else if 0 ≤ p && p < 1 then .ok (.below (p * 18446744073709551616).toUInt64.toNat)
  else .error .noProbability

def half : Chance := .below 0x8000000000000000

def third : Chance := .below 0x5555555555555400

def tenth : Chance := .below 0x1999999999999A00

end Chance

/-! ## Uniform draws -/

namespace Draw

variable {ω : Type} [WordSource ω]

/-- How often a word is drawn again. The bound is this library's own: a plain rejection loop goes on
until a word is accepted. -/
def redraws : Nat := 65536

/-- The upper half of a product with a word of some number of bits. -/
def reduced (bits n word : Nat) : Nat := (word * n) >>> bits

/-- Draws words until the lower half of the product with `n` is at most `zone`. -/
def belowFrom (word : Draw ω Nat) (bits zone n : Nat) : Nat → Draw ω Nat
  | 0 => do
    let x ← word
    return reduced bits n x
  | fuel + 1 => do
    let x ← word
    if x * n % (1 <<< bits) ≤ zone then return reduced bits n x
    else belowFrom word bits zone n fuel

/-- The greatest multiple of a power of two and `n` that fits, less one. -/
def shiftZone (bits n : Nat) : Nat := (n <<< (bits - 1 - Nat.log2 n)) - 1

/-- A number below `n`, from words of 64 bits. -/
def below (n : Nat) : Draw ω Nat := belowFrom large 64 (shiftZone 64 n) n redraws

/-- A number below `n`, from words of 32 bits. -/
def belowSmall (n : Nat) : Draw ω Nat := belowFrom small 32 (shiftZone 32 n) n redraws

/-- An integer from `low` up to `high`. -/
def between (low high : Int) : Draw ω Int := do
  let x ← below (high - low + 1).toNat
  return low + x

/-- A lower-case letter. -/
def letter : Draw ω Char := do
  let x ← belowFrom small 32 (UInt32.size - 1 - UInt32.size % 26) 26 redraws
  return Char.ofNat (97 + x)

/-- A number in `[0, 1)`. -/
def unit : Draw ω Float := do
  let x ← large
  return (x >>> 11).toUInt64.toFloat / 9007199254740992

/-- The number in `[low, high)` that the fraction bits of a word stand for. -/
def stretched (low high : Float) (word : Nat) : Float :=
  let fraction := Float.ofBits ((0x3FF0000000000000 : UInt64) ||| (word >>> 12).toUInt64) - 1
  fraction * (high - low) + low

/-- A number in `[low, high)`, drawn again while rounding gives `high`. -/
def floatFrom (low high : Float) : Nat → Draw ω Float
  | 0 => do
    let x ← large
    return stretched low high x
  | fuel + 1 => do
    let x ← large
    if stretched low high x < high then return stretched low high x else floatFrom low high fuel

def float (low high : Float) : Draw ω Float := floatFrom low high redraws

/-- Yes with a chance. A certain yes takes no word. -/
def coin : Chance → Draw ω Bool
  | .always => pure true
  | .below threshold => do
    let x ← large
    return x < threshold

/-- An element of a list. The empty list has none and takes no word. -/
def choose {α : Type} (l : List α) : Draw ω (Option α) :=
  if l.isEmpty then pure none else do
    let i ← belowSmall l.length
    return l[i]?

theorem reduced_lt {bits n word : Nat} (hn : 0 < n) (hw : word < 1 <<< bits) :
    reduced bits n word < n := by
  rw [reduced, Nat.shiftRight_eq_div_pow]
  rw [Nat.shiftLeft_eq, Nat.one_mul] at hw
  exact Nat.div_lt_of_lt_mul (Nat.mul_lt_mul_of_pos_right hw hn)

end Draw

/-! ## Acts -/

/-- An act draws from a world, changes it, and may end in a fault. -/
abbrev Act (ω α : Type) := StateT ω (Except Fault) α

namespace Act

variable {ω α : Type}

/-- A draw is an act without faults. -/
def draw (d : Draw ω α) : Act ω α := fun w => .ok (d w)

/-- Flips a coin with a probability. -/
def coin [WordSource ω] (p : Float) : Act ω Bool := do
  let chance ← Chance.ofFloat? p
  draw (Draw.coin chance)

end Act

end SuiteSearch
