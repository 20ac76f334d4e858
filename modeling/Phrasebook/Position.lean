/-!
# Positions in a Text

Lines are separated by line feeds alone, and columns count the bytes of the
UTF-8 form. Both count from zero here and from one where they are shown.

A position is not stored while a text is read. It is computed from the part of
the text that lies in front of it, so a reader only has to keep what it has left.

## Main definitions

* `Position`: A line and a column.
* `Position.after`: The position behind a text.
* `Position.advanceBytes`: A position moved on by a number of bytes.
* `Span`: A first position and the position behind the last character.
* `Location`: A span in a file.

## Theorems

* `Position.advanceText_append`, `Position.after_append`: The position behind a
  text of two parts.
-/

namespace Phrasebook

/-- A place in a text. -/
structure Position where
  line : Nat
  column : Nat
  deriving DecidableEq, Inhabited

namespace Position

/-- The position behind one more character. -/
def advance (p : Position) (c : Char) : Position :=
  if c = '\n' then ⟨p.line + 1, 0⟩ else ⟨p.line, p.column + c.utf8Size⟩

/-- The position behind a text that starts at `p`. -/
def advanceText (p : Position) (s : List Char) : Position := s.foldl advance p

/-- The position behind a text. -/
def after (s : List Char) : Position := advanceText ⟨0, 0⟩ s

/-- The position `count` bytes further into a text, which may lie inside a
    character, but not behind the end of the text. -/
def advanceBytes (p : Position) : List Char → Nat → Position
  | [], _ => p
  | c :: cs, count =>
    if c.utf8Size ≤ count then advanceBytes (p.advance c) cs (count - c.utf8Size)
    else ⟨p.line, p.column + count⟩

/-- A number that counts from zero, as it is shown counting from one. It is shown as
    a number of 32 bits, of which the last one is followed by zero. -/
def ordinal (n : Nat) : Nat := (n + 1) % (1 <<< 32)

/-- The position as it is shown. -/
def display (p : Position) : String :=
  toString (ordinal p.line) ++ ":" ++ toString (ordinal p.column)

/-- The position behind two texts is that behind the second, reached from behind
    the first. -/
theorem advanceText_append {p : Position} {s t : List Char} :
    p.advanceText (s ++ t) = (p.advanceText s).advanceText t := List.foldl_append

/-- The position behind two texts, counted from the start of the first. -/
theorem after_append {s t : List Char} : after (s ++ t) = (after s).advanceText t :=
  advanceText_append

end Position

/-- A part of a text, from its first character to behind its last. -/
structure Span where
  start : Position
  stop : Position
  deriving DecidableEq, Inhabited

/-- A part of a file. -/
structure Location where
  path : String
  span : Span
  deriving DecidableEq

namespace Location

/-- The location as it is shown: the file and where the part starts. -/
def display (l : Location) : String := l.path ++ ":" ++ l.span.start.display

/-- The words that lead a message about a place, if there is one. -/
def lead : Option Location → String
  | some l => l.display ++ ": "
  | none => ""

end Location

end Phrasebook
