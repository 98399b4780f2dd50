import SuiteSearch.Random.Draw
import SuiteSearch.Program.Literal
import SuiteSearch.Ty.Basic

/-!
# Random literals

Constants for primitives, boxes and texts, and small changes to them. Whole numbers stay in the
range of their type.

    random? t gives a literal exactly for the types with `hasLiteral t`
    perturb moves a whole number by 1 to 20, flips a boolean, edits one character of a text
-/

namespace SuiteSearch.Literal

variable {ω : Type} [WordSource ω]

/-! ## Whole numbers -/

/-- The least and the greatest whole number of a type; 32 bits for one that has none of its own. -/
def range : Primitive → Int × Int
  | .byte => (-0x80, 0x7F)
  | .short => (-0x8000, 0x7FFF)
  | .long => (-0x8000000000000000, 0x7FFFFFFFFFFFFFFF)
  | _ => (-0x80000000, 0x7FFFFFFF)

/-- The nearest number within bounds. -/
def clamp (bounds : Int × Int) (n : Int) : Int := max bounds.1 (min n bounds.2)

/-- The values at which programs often differ. -/
def boundaries (p : Primitive) : List Int := [0, 1, -1, (range p).1, (range p).2]

/-! ## Texts -/

def letters : Nat → Draw ω (List Char)
  | 0 => pure []
  | n + 1 => do
    let c ← Draw.letter
    let rest ← letters n
    return c :: rest

/-- A letter that differs from a given character. -/
def otherLetter (current : Char) : Draw ω Char := do
  let c ← Draw.letter
  return if c ≠ current then c else if c = 'z' then 'a' else Char.ofNat (c.toNat + 1)

/-- The greatest length of a random text. -/
def maxTextLength : Nat := 8

def commonTexts : List String := ["", "a", "test", "0"]

/-- A random text of letters. -/
def freshText : Draw ω String := do
  let n ← Draw.below (maxTextLength + 1)
  let cs ← letters n
  return String.ofList cs

/-- A common text half of the time. -/
def randomText : Draw ω String := do
  if ← Draw.coin .half then
    match ← Draw.choose commonTexts with
    | some s => return s
    | none => freshText
  else freshText

/-- Removes, replaces or inserts one character. -/
def editText (cs : List Char) : Draw ω (List Char) := do
  match ← Draw.belowSmall 3, cs with
  | 0, c :: rest =>
    let i ← Draw.below (c :: rest).length
    return (c :: rest).eraseIdx i
  | 1, c :: rest =>
    let i ← Draw.below (c :: rest).length
    let d ← otherLetter ((c :: rest).getD i c)
    return (c :: rest).set i d
  | _, cs =>
    let i ← Draw.below (cs.length + 1)
    let c ← Draw.letter
    return cs.insertIdx i c

/-! ## Floats -/

/-- Zero, one, minus one, the greatest number and the least positive one without leading zeros. -/
def floatBoundaries : List UInt64 :=
  [0, 0x3FF0000000000000, 0xBFF0000000000000, 0x7FEFFFFFFFFFFFFF, 0x0010000000000000]

/-- A sum; a NaN stays as it is, but quiet. -/
def addToBits (bits : UInt64) (x : Float) : UInt64 :=
  if Binary64.isNaN bits then bits ||| 0x0008000000000000 else (Float.ofBits bits + x).toBits

/-! ## Literals -/

/-- The greatest magnitude of an ordinary number. -/
def smallRange : Int := 100

/-- The greatest change of a number. -/
def maxDelta : Int := 20

def randomFloat : Draw ω Literal := do
  if ← Draw.coin .tenth then
    let bits ← Draw.choose floatBoundaries
    return .float (bits.getD 0)
  else
    let x ← Draw.float (-100) 100
    return .float x.toBits

def randomInt (p : Primitive) : Draw ω Literal := do
  if ← Draw.coin .tenth then
    let n ← Draw.choose (boundaries p)
    return .int (n.getD 0)
  else
    let n ← Draw.between (-smallRange) smallRange
    return .int n

def randomOf : Primitive → Draw ω Literal
  | .boolean => do return .bool (← Draw.coin .half)
  | .char => do return .char (← Draw.letter)
  | .float | .double => randomFloat
  | p => randomInt p

/-- Whether values of the type are written as literals. -/
def hasLiteral (t : Ty) : Bool := t.isString || t.underlying.isSome

/-- A random constant of a type that has any. -/
def random? (t : Ty) : Draw ω (Option Literal) :=
  match t.underlying with
  | some p => do return some (← randomOf p)
  | none => if t.isString then do return some (.text (← randomText)) else pure none

/-- The change of a whole number, which is never zero. -/
def delta : Draw ω Int := do
  let d ← Draw.between (-maxDelta) maxDelta
  return if d = 0 then 1 else d

/-- A small change to a constant. -/
def perturb (t : Ty) : Literal → Draw ω Literal
  | .null => pure .null
  | .bool b => pure (.bool !b)
  | .int n => do
    let d ← delta
    let moved := clamp (range .long) (n + d)
    return .int (t.underlying.elim moved fun p => clamp (range p) moved)
  | .float bits => do
    let x ← Draw.float (-1) 1
    return .float (addToBits bits (x * 20))
  | .char _ => do return .char (← Draw.letter)
  | .text s => do return .text (String.ofList (← editText s.toList))

end SuiteSearch.Literal
