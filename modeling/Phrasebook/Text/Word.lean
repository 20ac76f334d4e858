import Phrasebook.Text.Alphabetic
import Phrasebook.Text.Digit
import Phrasebook.Text.Mark

/-!
# Word Characters

Two classes of characters that are easily taken for one.

Names inside a placeholder are made of the word characters of Unicode's
guideline on patterns: alphabetic characters, marks, decimal digits, connectors
such as `_`, and the two joiners. Identifiers of a configuration, and the text
around a placeholder, are judged by a second class, the alphanumeric characters
and `_`. That class has the numbers that are no decimal digits, and lacks the
marks that are not alphabetic, the other connectors and the joiners. It also has
the characters of Unicode 17, while names in a placeholder stay with Unicode 16.
Neither class holds the other.

## Main definitions

* `isWordChar`: The characters of names in a placeholder.
* `isAlphanumeric`: Alphabetic characters and numbers.
* `isIdentifierChar`: Alphanumeric characters and `_`.

## Theorems

* `not_isWordChar_colon`, `not_isWordChar_openBrace`,
  `not_isWordChar_closeBrace`: The signs of a placeholder are no word
  characters.
-/

namespace Phrasebook

namespace Text

/-- Whether a character joins words, as `_` does (category Pc). -/
def isConnector (c : Char) : Bool :=
  covers [(0x5F, 0x5F), (0x203F, 0x2040), (0x2054, 0x2054), (0xFE33, 0xFE34), (0xFE4D, 0xFE4F),
    (0xFF3F, 0xFF3F)] c.toNat

/-- Whether a character is one of the two joiners of zero width. -/
def isJoiner (c : Char) : Bool := c == '\u200C' || c == '\u200D'

/-- Whether a character may stand in a name inside a placeholder. The tables are
    those of Unicode 16. -/
def isWordChar (c : Char) : Bool :=
  isAlphabetic c || isMark c || isDecimalDigit c || isConnector c || isJoiner c

/-- Whether a character is alphabetic or a number in Unicode 17. -/
def isAlphanumeric (c : Char) : Bool := isAlphabetic c || isAddedAlphabetic c || isNumber c

/-- Whether a character is alphanumeric or `_`. -/
def isIdentifierChar (c : Char) : Bool := isAlphanumeric c || c == '_'

/-- A colon ends a name. -/
theorem not_isWordChar_colon : isWordChar ':' = false := by decide

/-- An opening brace ends a name. -/
theorem not_isWordChar_openBrace : isWordChar '\x7b' = false := by decide

/-- A closing brace ends a name. -/
theorem not_isWordChar_closeBrace : isWordChar '\x7d' = false := by decide

end Text

end Phrasebook
