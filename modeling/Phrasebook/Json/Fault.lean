import Phrasebook.Json.Number
import Phrasebook.Position
import Phrasebook.Text.Quoted

/-!
# Failures of Reading JSON

Why a text cannot be read, and where. A reader knows only what it has left of
the text, so its `Fault` names the place by that rest and a number of bytes that
were consumed from it. `Fault.place` turns it into an `Error` with a line and a
column once the whole text is at hand.

## Main definitions

* `Found`: What stands where another type of value was expected.
* `Reason`: The causes of a failure.
* `Reason.category`: Whether a cause lies in the syntax, in the values, or in
  the end of the text.
* `Fault`: A cause and the rest of the text.
* `Error`: A cause and a position.
-/

namespace Phrasebook

namespace Json

/-- A value that stands where a value of another type was expected. -/
inductive Found where
  | null
  | boolean (value : Bool)
  | number (value : Number)
  | text (value : String)
  | array
  | object

/-- The words for a value of an unexpected type. -/
def Found.describe : Found → String
  | null => "null"
  | boolean value => "boolean `" ++ toString value ++ "`"
  | number (.integer value) => "integer `" ++ toString value ++ "`"
  | number (.real value) => "floating point `" ++ Number.realText value ++ "`"
  | text value => "string " ++ Text.quote value
  | array => "sequence"
  | object => "map"

/-- Why a text cannot be read. -/
inductive Reason where
  | endInValue
  | endInString
  | endInArray
  | endInObject
  | noValue
  | misspelledWord
  | malformedNumber
  | numberTooLarge
  | controlInString
  | unknownEscape
  | unpairedSurrogate
  | brokenSurrogatePair
  | noCommaInArray
  | noCommaInObject
  | noColon
  | trailingComma
  | nameNotString
  | trailingText
  | nestedTooDeep
  | wrongType (found : Found) (expected : String)
  | repeatedField (name : String)
  | missingField (name : String)
  | tooFewElements (count : Nat) (expected : String)

/-- The kind of a failure. -/
inductive Category where
  /-- The text is no JSON. -/
  | malformed
  /-- The text is JSON, but does not hold the values that were asked for. -/
  | mismatched
  /-- The text ends too early. -/
  | unfinished
  deriving DecidableEq

namespace Reason

/-- The kind of failure that a cause makes. -/
def category : Reason → Category
  | endInValue | endInString | endInArray | endInObject => .unfinished
  | wrongType .. | repeatedField .. | missingField .. | tooFewElements .. => .mismatched
  | _ => .malformed

/-- The words for a cause. -/
def message : Reason → String
  | endInValue => "EOF while parsing a value"
  | endInString => "EOF while parsing a string"
  | endInArray => "EOF while parsing a list"
  | endInObject => "EOF while parsing an object"
  | noValue => "expected value"
  | misspelledWord => "expected ident"
  | malformedNumber => "invalid number"
  | numberTooLarge => "number out of range"
  | controlInString => "control character (\\u0000-\\u001F) found while parsing a string"
  | unknownEscape => "invalid escape"
  | unpairedSurrogate => "lone leading surrogate in hex escape"
  | brokenSurrogatePair => "unexpected end of hex escape"
  | noCommaInArray => "expected `,` or `]`"
  | noCommaInObject => "expected `,` or `\x7d`"
  | noColon => "expected `:`"
  | trailingComma => "trailing comma"
  | nameNotString => "key must be a string"
  | trailingText => "trailing characters"
  | nestedTooDeep => "recursion limit exceeded"
  | wrongType found expected =>
    "invalid type: " ++ found.describe ++ ", expected " ++ expected
  | repeatedField name => "duplicate field `" ++ name ++ "`"
  | missingField name => "missing field `" ++ name ++ "`"
  | tooFewElements count expected =>
    "invalid length " ++ toString count ++ ", expected " ++ expected

end Reason

/-- A failure while `rest` was left of the text and `consumed` bytes of that
    rest were taken. -/
structure Fault where
  reason : Reason
  rest : List Char
  consumed : Nat

/-- A failure at a place of the text. -/
structure Error where
  reason : Reason
  position : Position

/-- A reader takes a value from the front of a text and leaves the rest. -/
abbrev Reader (α : Type) := List Char → Except Fault (α × List Char)

namespace Fault

/-- A failure behind what was consumed so far. -/
def here (reason : Reason) (rest : List Char) : Fault := ⟨reason, rest, 0⟩

/-- A failure that counts the next byte as consumed, if there is one. -/
def atNext (reason : Reason) (rest : List Char) : Fault := ⟨reason, rest, 1⟩

/-- The failure with its position in `text`, of which `rest` is the end. -/
def place (text : List Char) (f : Fault) : Error :=
  let front := text.take (text.length - f.rest.length)
  ⟨f.reason, (Position.after front).advanceBytes f.rest f.consumed⟩

end Fault

namespace Error

/-- The message, with the line and the number of bytes consumed from it. -/
def message (e : Error) : String :=
  e.reason.message ++ " at line " ++ toString (e.position.line + 1) ++ " column " ++
    toString e.position.column

end Error

end Json

end Phrasebook
