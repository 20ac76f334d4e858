import Phrasebook.Json.Fault

/-!
# Blanks and Words of JSON

The smallest pieces of a JSON text: the blanks between its tokens and the words
`null`, `true` and `false`.

## Main definitions

* `isSpace`, `skipSpace`: The four blanks of JSON.
* `readWord`: The rest of a word whose first letter decided for it.
-/

namespace Phrasebook

namespace Json

/-- Whether a character may stand between tokens. -/
def isSpace (c : Char) : Bool := c == ' ' || c == '\t' || c == '\n' || c == '\r'

/-- The text behind the blanks at its front. -/
def skipSpace (s : List Char) : List Char := s.dropWhile isSpace

/-- Read the given letters, up to the first that differs. -/
def readWord : List Char → List Char → Except Fault (List Char)
  | [], s => .ok s
  | _ :: _, [] => .error (.here .endInValue [])
  | letter :: letters, c :: cs =>
    if c = letter then readWord letters cs else .error (.atNext .misspelledWord (c :: cs))

end Json

end Phrasebook
