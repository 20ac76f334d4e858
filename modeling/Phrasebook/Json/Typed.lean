import Phrasebook.Json.Document
import Phrasebook.Json.Skip

/-!
# Reading Values of an Expected Type

Readers that know which type of value has to come, and say what stands there
instead. A scalar of another type is read before it is refused, and its own
faults come first; an array or object is refused at its bracket.

## Main definitions

* `mismatch`: The fault of a value of another type.
* `readText`, `readFlag`, `readTexts`, `readTable`: A string, a boolean, an array
  of strings, and an object used as a table.
* `readEnd`: The end of an array of known length.
* `repeated`: The fault of a second member for one field.
-/

namespace Phrasebook

namespace Json

/-- The fault of a word of another type. -/
def mismatchedWord (found : Found) (expected : String) (letters s : List Char) : Fault :=
  match readWord letters s with
  | .ok rest => .here (.wrongType found expected) rest
  | .error f => f

/-- The fault when the value at the front of a text is not what is expected. -/
def mismatch (expected : String) : List Char → Fault
  | [] => .here .endInValue []
  | c :: cs =>
    if c = 'n' then mismatchedWord .null expected ['u', 'l', 'l'] cs
    else if c = 't' then mismatchedWord (.boolean true) expected ['r', 'u', 'e'] cs
    else if c = 'f' then mismatchedWord (.boolean false) expected ['a', 'l', 's', 'e'] cs
    else if c = '-' ∨ (Numeral.digit? c).isSome then
      match Numeral.readValue (c :: cs) with
      | .ok (number, rest) => .here (.wrongType (.number number) expected) rest
      | .error f => f
    else if c = '"' then
      match Quoted.read cs with
      | .ok (text, rest) => .here (.wrongType (.text (String.ofList text)) expected) rest
      | .error f => f
    else if c = '[' then .here (.wrongType .array expected) (c :: cs)
    else if c = '\x7b' then .here (.wrongType .object expected) (c :: cs)
    else .atNext .noValue (c :: cs)

/-- A string. -/
def readText : Reader String := fun s => do
  match skipSpace s with
  | '"' :: cs =>
    let (text, rest) ← Quoted.read cs
    return (String.ofList text, rest)
  | other => .error (mismatch "a string" other)

/-- A boolean. -/
def readFlag : Reader Bool := fun s => do
  match skipSpace s with
  | 't' :: cs =>
    let rest ← readWord ['r', 'u', 'e'] cs
    return (true, rest)
  | 'f' :: cs =>
    let rest ← readWord ['a', 'l', 's', 'e'] cs
    return (false, rest)
  | other => .error (mismatch "a boolean" other)

/-- A string, or `null` for none. -/
def readOptionalText : Reader (Option String) := fun s => do
  match skipSpace s with
  | 'n' :: cs =>
    let rest ← readWord ['u', 'l', 'l'] cs
    return (none, rest)
  | other =>
    let (text, rest) ← readText other
    return (some text, rest)

/-- An array of strings. -/
def readTexts : Reader (List String) := fun s =>
  match skipSpace s with
  | '[' :: cs => readItems readText cs
  | other => .error (mismatch "a sequence" other)

/-- An object whose members have values of one type; of equal names the last
    counts. -/
def readTable {α : Type} (value : Reader α) : Reader (Dict α) := fun s => do
  match skipSpace s with
  | '\x7b' :: cs =>
    let (members, rest) ← readMembers value cs
    return (Dict.ofList (members.map (fun (name, x) => (name.text, x))), rest)
  | other => .error (mismatch "a map" other)

/-- The text behind the closing bracket of an array that may have no more
    items. -/
def readEnd (s : List Char) : Except Fault (List Char) :=
  match skipSpace s with
  | [] => .error (.here .endInArray [])
  | c :: cs =>
    if c = ']' then .ok cs
    else if c = ',' then
      match skipSpace cs with
      | ']' :: ds => .error (.atNext .trailingComma (']' :: ds))
      | ds => .error (.atNext .trailingText ds)
    else .error (.atNext .trailingText (c :: cs))

/-- The fault of a second member for one field, behind whose name `s` stands. A
    brace that closes the object there counts as consumed. -/
def repeated (field : String) (s : List Char) : Fault :=
  match skipSpace s with
  | '\x7d' :: cs => .here (.repeatedField field) cs
  | rest => .here (.repeatedField field) rest

end Json

end Phrasebook
