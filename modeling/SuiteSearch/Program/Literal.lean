import SuiteSearch.Decimal.Layout
import SuiteSearch.Text.Escape

/-!
# Literals

The constants of a program. A float is held by its bits, so that two constants are equal exactly if
they are the same constant, NaNs and the two zeros included.
-/

namespace SuiteSearch

inductive Literal
  | null
  | bool (b : Bool)
  | int (n : Int)
  | float (bits : UInt64)
  | char (c : Char)
  | text (s : String)
  deriving DecidableEq

namespace Literal

def isNull : Literal → Bool
  | null => true
  | _ => false

/-- The constant as it stands in a program. -/
def code : Literal → String
  | null => "null"
  | bool b => toString b
  | int n => toString n
  | float bits => Decimal.Layout.source.renderBits bits
  | char c => Text.quoteChar c
  | text s => Text.quoteText s

end Literal

end SuiteSearch
