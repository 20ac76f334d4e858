import Phrasebook.Json.Numeral
import Phrasebook.Json.Punctuation

/-!
# JSON Documents

Reading a whole text as one JSON value. Arrays and objects may nest up to a
fixed depth, which is also what the recursion runs on.

## Main definitions

* `readTree`: The value at the front of a text.
* `readWhole`: A reader that has to take the whole text.
* `parse`: The document of a text.
-/

namespace Phrasebook

namespace Json

/-- The number of arrays and objects that may enclose one another. -/
def nestingLimit : Nat := 127

/-- The value at the front of a text, with at most `depth` arrays and objects
    around one another. -/
def readTree : (depth : Nat) → Reader Tree := fun depth s =>
  match skipSpace s with
  | [] => .error (.here .endInValue [])
  | c :: cs =>
    if c = 'n' then do
      let rest ← readWord ['u', 'l', 'l'] cs
      return (.null, rest)
    else if c = 't' then do
      let rest ← readWord ['r', 'u', 'e'] cs
      return (.boolean true, rest)
    else if c = 'f' then do
      let rest ← readWord ['a', 'l', 's', 'e'] cs
      return (.boolean false, rest)
    else if c = '-' ∨ (Numeral.digit? c).isSome then do
      let (number, rest) ← Numeral.readValue (c :: cs)
      return (.number number, rest)
    else if c = '"' then do
      let (text, rest) ← Quoted.read cs
      return (.string (String.ofList text), rest)
    else if c = '[' then
      match depth with
      | 0 => .error (.atNext .nestedTooDeep (c :: cs))
      | depth + 1 => do
        let (items, rest) ← readItems (readTree depth) cs
        return (.array items, rest)
    else if c = '\x7b' then
      match depth with
      | 0 => .error (.atNext .nestedTooDeep (c :: cs))
      | depth + 1 => do
        let (members, rest) ← readMembers (readTree depth) cs
        return (.object members, rest)
    else .error (.atNext .noValue (c :: cs))
termination_by structural depth => depth

/-- Apply a reader to a whole text; only blanks may follow what it takes. -/
def readWhole {α : Type} (reader : Reader α) (text : String) : Except Error α :=
  let chars := text.toList
  match reader chars with
  | .error f => .error (f.place chars)
  | .ok (x, rest) =>
    match skipSpace rest with
    | [] => .ok x
    | c :: cs => .error ((Fault.atNext .trailingText (c :: cs)).place chars)

/-- The document of a text. -/
def parse (text : String) : Except Error Tree := readWhole (readTree nestingLimit) text

end Json

end Phrasebook
