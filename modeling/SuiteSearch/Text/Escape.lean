import SuiteSearch.Text.Character

/-!
# Quoted characters and texts

A quoted text shows every character in a visible form. The quote of the notation, the backslash and
the four named controls have a two-character escape; a character that cannot be printed or that
would attach to the one before it is written `\\u{hex}`; every other character stands for itself.

    quoteText s  = '"' ++ every character escaped ++ '"'
    quoteChar c  = '\'' ++ the character escaped ++ '\''
-/

namespace SuiteSearch.Text

/-! ## Algorithm -/

/-- The escape that names a code point in lower-case hexadecimal. -/
def codePointEscape (c : Char) : List Char :=
  ['\\', 'u', '\x7b'] ++ Nat.toDigits 16 c.toNat ++ ['\x7d']

/-- The visible form of a character between two `quote` characters. -/
def escapeChar (quote : Char) (c : Char) : List Char :=
  if c = '\x00' then ['\\', '0']
  else if c = '\t' then ['\\', 't']
  else if c = '\r' then ['\\', 'r']
  else if c = '\n' then ['\\', 'n']
  else if c = '\\' || c = quote then ['\\', c]
  else if isExtending c || isUnprintable c then codePointEscape c
  else [c]

/-- A text in double quotes. -/
def quoteText (s : String) : String :=
  String.ofList ('"' :: s.toList.flatMap (escapeChar '"') ++ ['"'])

/-- A character in single quotes. -/
def quoteChar (c : Char) : String :=
  String.ofList ('\'' :: escapeChar '\'' c ++ ['\''])

end SuiteSearch.Text
