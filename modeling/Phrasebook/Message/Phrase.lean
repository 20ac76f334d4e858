import Phrasebook.Message.Template

/-!
# Phrases

The text of a message: literal pieces, and slots for the values of arguments. A
phrase is built from the front by adding literals and slots. Literals that meet
are joined and empty ones are left out, so two phrases that always read the same
piece by piece are equal however they were built.

## Main definitions

* `Piece`: A literal or a slot.
* `Phrase`: A list of pieces.
* `Phrase.addLiteral`, `Phrase.addSlot`: Building a phrase.
* `Phrase.render`: The text for given values.
* `Phrase.asked`: The variables in the order in which values are asked for.
* `Phrase.display`: The text with every variable in braces.
-/

namespace Phrasebook

/-- A part of a message text. -/
inductive Piece where
  | literal (text : String)
  | slot (variableName : String) (template : Template)
  deriving DecidableEq, Inhabited

namespace Piece

/-- The text of a piece for given values. -/
def render (valueOf : String → String) : Piece → String
  | literal text => text
  | slot name template => template.fill (valueOf name)

/-- The variable that a piece asks for. -/
def asked? : Piece → Option String
  | literal _ => none
  | slot name _ => some name

/-- The pieces with a literal added behind them, which joins a last literal. -/
def appendLiteral (text : String) : List Piece → List Piece
  | [] => [literal text]
  | [literal last] => [literal (last ++ text)]
  | piece :: pieces => piece :: appendLiteral text pieces

end Piece

/-- The text of a message. -/
structure Phrase where
  pieces : List Piece
  deriving DecidableEq, Inhabited

namespace Phrase

/-- The phrase without pieces. -/
def empty : Phrase := ⟨[]⟩

instance : EmptyCollection Phrase := ⟨empty⟩

/-- The phrase with a literal added behind it. -/
def addLiteral (p : Phrase) (text : String) : Phrase :=
  if text.isEmpty then p else ⟨Piece.appendLiteral text p.pieces⟩

/-- The phrase with a slot added behind it. -/
def addSlot (p : Phrase) (name : String) (template : Template) : Phrase :=
  ⟨p.pieces ++ [.slot name template]⟩

/-- The text of a phrase for given values. -/
def render (p : Phrase) (valueOf : String → String) : String :=
  String.join (p.pieces.map (Piece.render valueOf))

/-- The variables whose values a phrase asks for, in the order of its text. -/
def asked (p : Phrase) : List String := p.pieces.filterMap Piece.asked?

/-- The text of a phrase with every variable in braces. -/
def display (p : Phrase) : String := p.render (fun name => "\x7b" ++ name ++ "\x7d")

end Phrase

end Phrasebook
