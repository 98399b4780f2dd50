import SuiteSearch.Json.Value

/-!
# Writing JSON

Two forms of one value: without any blank, and with one item a line, indented by two blanks a level.
In a text the quote, the backslash and the controls are escaped and all else is written as it is.
-/

namespace SuiteSearch.Json

/-- The two hexadecimal digits of a control character. -/
def controlEscape (c : Char) : List Char :=
  ['\\', 'u', '0', '0', Nat.digitChar (c.toNat / 16), Nat.digitChar (c.toNat % 16)]

/-- A character inside a JSON text. -/
def escapeChar (c : Char) : List Char :=
  if c = '"' then ['\\', '"']
  else if c = '\\' then ['\\', '\\']
  else if c = '\n' then ['\\', 'n']
  else if c = '\r' then ['\\', 'r']
  else if c = '\t' then ['\\', 't']
  else if c = '\x08' then ['\\', 'b']
  else if c = '\x0c' then ['\\', 'f']
  else if c.toNat < 0x20 then controlEscape c
  else [c]

/-- A text in quotes. -/
def quote (s : String) : List Char := '"' :: s.toList.flatMap escapeChar ++ ['"']

namespace Value

/-- A text; one without a value is written as the empty text. -/
def quoteText (s : Option String) : List Char := quote (s.getD "")

mutual

/-- The form without blanks. -/
def compactChars : Value → List Char
  | .null => ['n', 'u', 'l', 'l']
  | .bool b => (toString b).toList
  | .number n => n.render Decimal.Layout.document.plus
  | .text s => quoteText s
  | .array items => '[' :: compactItems items ++ [']']
  | .object members => '{' :: compactMembers members ++ ['}']

def compactItems : List Value → List Char
  | [] => []
  | [v] => compactChars v
  | v :: rest => compactChars v ++ ',' :: compactItems rest

def compactMembers : List (Option String × Value) → List Char
  | [] => []
  | [(name, v)] => quoteText name ++ ':' :: compactChars v
  | (name, v) :: rest => quoteText name ++ ':' :: compactChars v ++ ',' :: compactMembers rest

end

/-- A line break and the indentation of a level. -/
def newline (level : Nat) : List Char := '\n' :: List.replicate (2 * level) ' '

mutual

/-- The form with one item a line, at a level of indentation. -/
def prettyChars (level : Nat) : Value → List Char
  | .null => ['n', 'u', 'l', 'l']
  | .bool b => (toString b).toList
  | .number n => n.render Decimal.Layout.document.plus
  | .text s => quoteText s
  | .array [] => ['[', ']']
  | .array items => '[' :: prettyItems (level + 1) items ++ newline level ++ [']']
  | .object [] => ['{', '}']
  | .object members => '{' :: prettyMembers (level + 1) members ++ newline level ++ ['}']

def prettyItems (level : Nat) : List Value → List Char
  | [] => []
  | [v] => newline level ++ prettyChars level v
  | v :: rest => newline level ++ prettyChars level v ++ ',' :: prettyItems level rest

def prettyMembers (level : Nat) : List (Option String × Value) → List Char
  | [] => []
  | [(name, v)] => newline level ++ quoteText name ++ [':', ' '] ++ prettyChars level v
  | (name, v) :: rest =>
    newline level ++ quoteText name ++ [':', ' '] ++ prettyChars level v
      ++ ',' :: prettyMembers level rest

end

/-- The text without blanks. -/
def compact (v : Value) : String := String.ofList v.compactChars

/-- The text with one item a line. -/
def pretty (v : Value) : String := String.ofList (v.prettyChars 0)

end Value

end SuiteSearch.Json
