import Phrasebook.Json.Quoted
import Phrasebook.Json.Value

/-!
# Punctuation of JSON

The brackets, commas and colons around the items of an array and the members of
an object. The readers here take the reader of an item or of a member, so
documents of any shape and values of one expected shape are read alike.

Each loop takes a bound on the number of rounds. Every round consumes at least
one character, so the length of the text is bound enough, and the loops start
with it.

## Main definitions

* `nextItem`, `nextName`: What stands in front of the next item or member.
* `readName`, `readColon`: The name of a member and the colon behind it.
* `readItems`: The items up to the closing bracket.
* `readMembers`: The members up to the closing brace, each with its value.
* `foldMembers`: The members up to the closing brace, by a reader that remembers
  the members before.
-/

namespace Phrasebook

namespace Json

/-- The text at the next item of an array, none at the closing bracket. -/
def nextItem (first : Bool) (s : List Char) : Except Fault (Option (List Char)) :=
  match skipSpace s with
  | [] => .error (.here .endInArray [])
  | c :: cs =>
    if c = ']' then .ok none
    else if first then .ok (some (c :: cs))
    else if c = ',' then
      match skipSpace cs with
      | [] => .ok (some [])
      | d :: ds =>
        if d = ']' then .error (.atNext .trailingComma (d :: ds)) else .ok (some (d :: ds))
    else .error (.atNext .noCommaInArray (c :: cs))

/-- The text at the quote of the next name of an object, none at the closing
    brace. -/
def nextName (first : Bool) (s : List Char) : Except Fault (Option (List Char)) :=
  match skipSpace s with
  | [] => .error (.here .endInObject [])
  | c :: cs =>
    if c = '\x7d' then .ok none
    else if first then
      if c = '"' then .ok (some (c :: cs)) else .error (.atNext .nameNotString (c :: cs))
    else if c = ',' then
      match skipSpace cs with
      | [] => .error (.here .endInValue [])
      | d :: ds =>
        if d = '"' then .ok (some (d :: ds))
        else if d = '\x7d' then .error (.atNext .trailingComma (d :: ds))
        else .error (.atNext .nameNotString (d :: ds))
    else .error (.atNext .noCommaInObject (c :: cs))

/-- The text behind the closing sign that stands behind blanks. -/
def behindClosing (s : List Char) : List Char := (skipSpace s).drop 1

/-- The name whose opening quote is the first character of the text. -/
def readName : Reader Name := fun s => do
  let inner := s.drop 1
  let (text, rest) ← Quoted.read inner
  let spelling := inner.take (inner.length - rest.length - 1)
  return (⟨String.ofList text, String.ofList spelling, s.length⟩, rest)

/-- The text behind the colon that has to follow a name. -/
def readColon (s : List Char) : Except Fault (List Char) :=
  match skipSpace s with
  | [] => .error (.here .endInObject [])
  | c :: cs => if c = ':' then .ok cs else .error (.atNext .noColon (c :: cs))

/-- At most `rounds` items and the closing bracket. -/
def readItemsFrom {α : Type} (item : Reader α) : (rounds : Nat) → (first : Bool) → Reader (List α)
  | 0, _ => fun s => .error (.here .endInArray s)
  | rounds + 1, first => fun s => do
    match ← nextItem first s with
    | none => return ([], behindClosing s)
    | some s =>
      let (x, s) ← item s
      let (xs, s) ← readItemsFrom item rounds false s
      return (x :: xs, s)

/-- The items of an array, behind its opening bracket. -/
def readItems {α : Type} (item : Reader α) : Reader (List α) := fun s =>
  readItemsFrom item (s.length + 1) true s

/-- At most `rounds` members and the closing brace. -/
def readMembersFrom {α : Type} (value : Reader α) :
    (rounds : Nat) → (first : Bool) → Reader (List (Name × α))
  | 0, _ => fun s => .error (.here .endInObject s)
  | rounds + 1, first => fun s => do
    match ← nextName first s with
    | none => return ([], behindClosing s)
    | some s =>
      let (name, s) ← readName s
      let s ← readColon s
      let (x, s) ← value s
      let (members, s) ← readMembersFrom value rounds false s
      return ((name, x) :: members, s)

/-- The members of an object, behind its opening brace. -/
def readMembers {α : Type} (value : Reader α) : Reader (List (Name × α)) := fun s =>
  readMembersFrom value (s.length + 1) true s

/-- At most `rounds` members, each read behind its name with what the members
    before it left, and the closing brace. -/
def foldMembersFrom {σ : Type} (member : σ → Name → Reader σ) :
    (rounds : Nat) → (first : Bool) → σ → Reader σ
  | 0, _, _ => fun s => .error (.here .endInObject s)
  | rounds + 1, first, state => fun s => do
    match ← nextName first s with
    | none => return (state, behindClosing s)
    | some s =>
      let (name, s) ← readName s
      let (state, s) ← member state name s
      foldMembersFrom member rounds false state s

/-- The members of an object, behind its opening brace, gathered in a state. -/
def foldMembers {σ : Type} (member : σ → Name → Reader σ) (start : σ) : Reader σ := fun s =>
  foldMembersFrom member (s.length + 1) true start s

end Json

end Phrasebook
