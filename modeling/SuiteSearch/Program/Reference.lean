import SuiteSearch.Ty.Basic

/-!
# References

A statement refers to a value by the position of the statement that produced it, and from there
through fields and array elements. A reference to a statement that is gone is dangling.

    position    the statement at the base of a reference
    sameValue   equal up to the mark that a base is a typed null
    remap       renumbers the base; a base without a new number leaves a dangling reference
    replace     puts one reference for another, at the outermost place where it occurs
-/

namespace SuiteSearch

inductive Ref
  /-- What the statement at a position returned. -/
  | value (p : Nat)
  /-- The null that the literal statement at a position stands for. -/
  | null (p : Nat)
  | field (source : Ref) (f : Field)
  | element (array : Ref) (index : Nat)
  /-- The statement is gone. -/
  | dangling
  deriving DecidableEq

namespace Ref

/-- The position of the statement at the base. -/
def position : Ref → Option Nat
  | value p | null p => some p
  | field source _ => source.position
  | element array _ => array.position
  | dangling => none

/-- The reference that this one hangs on: the array of an element, the innermost object of fields.
-/
def additional : Ref → Option Ref
  | field source _ => some (source.additional.getD source)
  | element array _ => some array
  | _ => none

/-- The number of fields on top. -/
def depth : Ref → Nat
  | field source _ => source.depth + 1
  | _ => 0

def isNull : Ref → Bool
  | null _ => true
  | _ => false

def isField : Ref → Bool
  | field _ _ => true
  | _ => false

def isElement : Ref → Bool
  | element _ _ => true
  | _ => false

/-- Whether the base is gone. -/
def isDangling : Ref → Bool
  | dangling => true
  | field source _ => source.isDangling
  | element array _ => array.isDangling
  | _ => false

/-- Whether two references denote one value; a null and a value at one position do. -/
def sameValue : Ref → Ref → Bool
  | value p, value q | value p, null q | null p, value q | null p, null q => p == q
  | field s f, field t g => f == g && s.sameValue t
  | element a i, element b j => i == j && a.sameValue b
  | _, _ => false

/-- Renumbers the base. -/
def remap (f : Nat → Option Nat) : Ref → Ref
  | value p => (f p).elim dangling value
  | null p => (f p).elim dangling null
  | field source g => if (source.remap f).isDangling then dangling else field (source.remap f) g
  | element array i => if (array.remap f).isDangling then dangling else element (array.remap f) i
  | dangling => dangling

/-- Puts `new` for the outermost part that denotes `old`. -/
def replace (old new : Ref) : Ref → Ref
  | field source f =>
    if (field source f).sameValue old then new else field (replace old new source) f
  | element array i =>
    if (element array i).sameValue old then new else element (replace old new array) i
  | r => if r.sameValue old then new else r

def render : Ref → String
  | value p | null p => s!"var{p}"
  | field source f => s!"{source.render}.{f.name}"
  | element array i => s!"{array.render}[{i}]"
  | dangling => "<dangling>"

/-! ## Lemmas -/

theorem isDangling_iff (r : Ref) : r.isDangling = r.position.isNone := by
  induction r with
  | value p => rfl
  | null p => rfl
  | field source f ih => exact ih
  | element array i ih => exact ih
  | dangling => rfl

theorem position_remap (f : Nat → Option Nat) (r : Ref) :
    (r.remap f).position = r.position.bind f := by
  induction r with
  | value p => cases h : f p <;> simp [remap, position, h]
  | null p => cases h : f p <;> simp [remap, position, h]
  | field source g ih | element array i ih =>
    simp only [remap, isDangling_iff, position]
    split
    · next h => rw [← ih, position, Option.isNone_iff_eq_none.mp h]
    · exact ih
  | dangling => rfl

end Ref

end SuiteSearch
