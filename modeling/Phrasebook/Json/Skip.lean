import Phrasebook.Json.Numeral
import Phrasebook.Json.Punctuation

/-!
# Passing Over JSON Values

Moving past a value that nobody asked for. Only its form is looked at: numbers
may have any size, surrogates need no partner, and nesting has no limit, since
the open arrays and objects are kept in a list.

## Main definitions

* `Frame`: An open array or object.
* `closeFrames`: What follows a complete value.
* `skipValue`: The text behind a value.
-/

namespace Phrasebook

namespace Json

/-- An open array or object. -/
inductive Frame where
  | array
  | object

namespace Frame

/-- The sign that closes a frame. -/
def closing : Frame → Char
  | array => ']'
  | object => '\x7d'

/-- The frame that a sign opens. -/
def ofOpening? (c : Char) : Option Frame :=
  if c = '[' then some array else if c = '\x7b' then some object else none

/-- The cause when the text ends inside a frame. -/
def unfinished : Frame → Reason
  | array => .endInArray
  | object => .endInObject

/-- The cause when a value in a frame is followed by neither a comma nor the
    closing sign. -/
def noComma : Frame → Reason
  | array => .noCommaInArray
  | object => .noCommaInObject

end Frame

/-- Pass over a numeral. A text that ends inside it is a malformed numeral
    here. -/
def skipNumeral (s : List Char) : Except Fault (List Char) :=
  match Numeral.read s with
  | .ok (_, rest) => .ok rest
  | .error f => .error { f with reason := .malformedNumber }

/-- Pass over a value that is neither an array nor an object. -/
def skipScalar : List Char → Except Fault (List Char)
  | [] => .error (.here .endInValue [])
  | c :: cs =>
    if c = 'n' then readWord ['u', 'l', 'l'] cs
    else if c = 't' then readWord ['r', 'u', 'e'] cs
    else if c = 'f' then readWord ['a', 'l', 's', 'e'] cs
    else if c = '-' ∨ (Numeral.digit? c).isSome then skipNumeral (c :: cs)
    else if c = '"' then Quoted.skip cs
    else .error (.atNext .noValue (c :: cs))

/-- Pass over the closing signs behind a complete value, and over a comma. The
    answer is the frames that are still open; another value has to follow in the
    innermost of them, if there is one. -/
def closeFrames : List Frame → List Char → Except Fault (List Frame × List Char)
  | [], s => .ok ([], s)
  | frame :: outer, s =>
    match skipSpace s with
    | [] => .error (.here frame.unfinished [])
    | c :: cs =>
      if c = ',' then .ok (frame :: outer, cs)
      else if c = frame.closing then closeFrames outer cs
      else .error (.atNext frame.noComma (c :: cs))

/-- Pass over what stands in front of a value in a frame: a name and a colon, or
    nothing. -/
def skipLead : Frame → List Char → Except Fault (List Char)
  | .array, s => .ok s
  | .object, s =>
    match skipSpace s with
    | [] => .error (.here .endInObject [])
    | c :: cs =>
      if c = '"' then do
        let rest ← Quoted.skip cs
        readColon rest
      else .error (.atNext .nameNotString (c :: cs))

/-- Pass over one scalar, or over the opening sign of a frame. The answer is the
    frames that are open before the next value. -/
def skipPiece (frames : List Frame) (s : List Char) : Except Fault (List Frame × List Char) :=
  match skipSpace s with
  | [] => .error (.here .endInValue [])
  | c :: cs =>
    match Frame.ofOpening? c with
    | none => do
      let rest ← skipScalar (c :: cs)
      closeFrames frames rest
    | some frame =>
      match skipSpace cs with
      | [] => .error (.here frame.unfinished [])
      | d :: ds =>
        if d = frame.closing then closeFrames frames ds else .ok (frame :: frames, d :: ds)

/-- Pass over values inside open frames until all are closed. -/
def skipFrom : (rounds : Nat) → List Frame → List Char → Except Fault (List Char)
  | 0, _, s => .error (.here .endInValue s)
  | rounds + 1, frames, s => do
    match ← skipPiece frames s with
    | ([], rest) => return rest
    | (frame :: outer, rest) =>
      let rest ← skipLead frame rest
      skipFrom rounds (frame :: outer) rest

/-- The text behind the value at the front of a text. Every round consumes a
    character. -/
def skipValue (s : List Char) : Except Fault (List Char) := skipFrom (s.length + 1) [] s

end Json

end Phrasebook
