/-!
# Primitive types

The eight primitive types, their keywords, the simple names of the classes that box them, and the
conversions between them that need no cast.

    ofKeyword? p.keyword = some p        (ofKeyword?_keyword)
-/

namespace SuiteSearch

inductive Primitive
  | boolean
  | char
  | byte
  | short
  | int
  | long
  | float
  | double
  deriving DecidableEq, Repr

namespace Primitive

/-! ## Algorithm -/

def all : List Primitive := [boolean, char, byte, short, int, long, float, double]

def keyword : Primitive → String
  | boolean => "boolean"
  | char => "char"
  | byte => "byte"
  | short => "short"
  | int => "int"
  | long => "long"
  | float => "float"
  | double => "double"

/-- The simple name of the class that boxes the type. -/
def wrapper : Primitive → String
  | boolean => "Boolean"
  | char => "Character"
  | byte => "Byte"
  | short => "Short"
  | int => "Integer"
  | long => "Long"
  | float => "Float"
  | double => "Double"

def ofKeyword? (s : String) : Option Primitive := all.find? (·.keyword == s)

def ofWrapper? (s : String) : Option Primitive := all.find? (·.wrapper == s)

/-- The types that a value converts to without a cast, its own aside. -/
def wider : Primitive → List Primitive
  | boolean => []
  | char => [int, long, float, double]
  | byte => [short, int, long, float, double]
  | short => [int, long, float, double]
  | int => [long, float, double]
  | long => [float, double]
  | float => [double]
  | double => []

/-- Whether a value converts to the target type without a cast. -/
def widensTo (p target : Primitive) : Bool := p == target || p.wider.contains target

/-- Whether the values are whole numbers; characters count as such. -/
def isIntegral : Primitive → Bool
  | byte | short | int | long | char => true
  | boolean | float | double => false

/-- Place in the order of declaration. -/
def rank : Primitive → Nat
  | boolean => 0
  | char => 1
  | byte => 2
  | short => 3
  | int => 4
  | long => 5
  | float => 6
  | double => 7

/-! ## Lemmas -/

theorem ofKeyword?_keyword (p : Primitive) : ofKeyword? p.keyword = some p := by
  cases p <;> decide

end Primitive

end SuiteSearch
