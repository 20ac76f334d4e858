import Phrasebook.Message.Phrase
import Phrasebook.Placeholder.Argument
import Phrasebook.Placeholder.Cutting

/-!
# Reading Message Texts

The arguments and the phrase of a message text. Every token becomes an argument
and a slot of the phrase, every gap a literal. Four things are refused, in this
order: from the left, a token that stands between another pair of braces or whose
type is unknown; then two tokens that are spelled alike; then a variable with two
types.

## Main definitions

* `Reading`: The arguments and the phrase of a text.
* `Reading.signature`: The type of every variable.
* `Reading.ofText`: Reading a text.
-/

namespace Phrasebook

/-- What a message text says. -/
structure Reading where
  /-- The argument of every token, by the spelling of the token. -/
  arguments : Dict Argument
  phrase : Phrase
  deriving DecidableEq

namespace Reading

/-- The type of every variable. -/
def signature (r : Reading) : Signature :=
  Dict.ofList (r.arguments.values.map (fun argument => (argument.variableName, argument.typeName)))

/-- The argument of a token in a text, unless the token is wrapped. -/
def argumentOf (types : Dict CustomType) (text : String) (o : Occurrence) :
    Except Defect Argument :=
  if o.isWrapped then .error (.placeholders text .wrapped)
  else
    let identifier := (o.token.identifier?.map String.ofList).getD Argument.defaultType
    Argument.resolve types (String.ofList o.token.name) identifier

/-- The first variable with a type other than the one it had before, with both
    types; `known` holds the latest type of the variables before. -/
def conflict? : (known : Dict String) → List Argument → Option (String × String × String)
  | _, [] => none
  | known, argument :: arguments =>
    match known.get? argument.variableName with
    | none => conflict? (known.insert argument.variableName argument.typeName) arguments
    | some type =>
      if type = argument.typeName then conflict? known arguments
      else some (argument.variableName, type, argument.typeName)

/-- Add a gap and the slot of an argument to a phrase. -/
def addCut (p : Phrase) (gap : List Char) (argument : Argument) : Phrase :=
  (p.addLiteral (String.ofList gap)).addSlot argument.variableName argument.template

/-- The phrase of gaps, each followed by an argument, and a last literal. -/
def phraseOf (cuts : List (List Char × Argument)) (tail : List Char) : Phrase :=
  (cuts.foldl (fun p (gap, argument) => addCut p gap argument) .empty).addLiteral
    (String.ofList tail)

/-- Read a message text. -/
def ofText (types : Dict CustomType) (text : String) : Except Defect Reading := do
  let cutting := Cutting.ofChars text.toList
  let arguments ← cutting.occurrences.mapM (argumentOf types text)
  let spellings := cutting.cuts.map (fun (_, token) => String.ofList token.spelling)
  let table := Dict.ofList (spellings.zip arguments)
  if table.size ≠ arguments.length then
    .error (.placeholders text (.repeated table.size arguments.length))
  else
    match conflict? .empty table.values with
    | some (name, first, second) => .error (.placeholders text (.conflicting name first second))
    | none => .ok ⟨table, phraseOf ((cutting.cuts.map Prod.fst).zip arguments) cutting.tail⟩

end Reading

end Phrasebook
