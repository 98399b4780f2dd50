import SuiteSearch.Error
import SuiteSearch.Text.Character

/-!
# Type names

A type is written as its keyword or class name with one pair of brackets for every array level.
Reading trims blanks before each pair of brackets and around the name; a name is not empty and holds
no blank.

    parse (render t) = ok t      for every type t that `parse` gives
-/

namespace SuiteSearch.Ty

/-! ## Algorithm -/

/-- The written form of a type. -/
def render : Ty → String
  | .void => "void"
  | .primitive p => p.keyword
  | .named name => name
  | .array component => component.render ++ "[]"

/-- The type of a name without brackets. -/
def ofBase (name : String) : Ty :=
  if name = "void" then .void
  else match Primitive.ofKeyword? name with
    | some p => .primitive p
    | none => .named name

/-- Whether a trimmed text is the name of a type that is no array. -/
def isBaseName (cs : List Char) : Bool := !cs.isEmpty && !cs.any Text.isBlank

/-- The text before a final pair of brackets. -/
def stripBrackets? (cs : List Char) : Option (List Char) :=
  match cs.reverse with
  | ']' :: '[' :: rest => some rest.reverse
  | _ => none

theorem stripBrackets?_length {cs rest : List Char} (h : stripBrackets? cs = some rest) :
    rest.length < cs.length := by
  unfold stripBrackets? at h
  split at h
  · next hr =>
    have hl := congrArg List.length hr
    simp only [List.length_reverse, List.length_cons] at hl
    obtain rfl := Option.some.inj h
    simp only [List.length_reverse]
    omega
  · cases h

/-- The type that a text names. -/
def parseChars (cs : List Char) : Except Misconfiguration Ty :=
  match _h : stripBrackets? (Text.trim cs) with
  | some rest => (parseChars rest).map .array
  | none =>
    if isBaseName (Text.trim cs) then .ok (ofBase (String.ofList (Text.trim cs)))
    else .error (.typeName (String.ofList (Text.trim cs)))
termination_by cs.length
decreasing_by exact Nat.lt_of_lt_of_le (stripBrackets?_length _h) (Text.trim_length_le cs)

/-- The type that a text names. -/
def parse (s : String) : Except Misconfiguration Ty := parseChars s.toList

end SuiteSearch.Ty
