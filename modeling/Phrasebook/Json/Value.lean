import Phrasebook.Dict
import Phrasebook.Json.Number

/-!
# JSON Values and Their Source

A document is read into a `Tree`, which keeps what its text says: members stand
in the order of the source, a name that is repeated stands twice, and each name
remembers its spelling and its place. The `Value` of a tree is what the document
means: members by ascending name, of equal names the last.

A value that is built to be written keeps the members in the order given to it.

## Main definitions

* `Name`: The name of a member in the source.
* `Tree`: A document in the order of its source.
* `Value`: A JSON value.
* `Tree.value`: What a document means.
* `Value.kind`: The words for the type of a value.
-/

namespace Phrasebook

namespace Json

/-- The name of a member in the source of a document. -/
structure Name where
  /-- The text that the name stands for. -/
  text : String
  /-- The characters between its quotes. -/
  spelling : String
  /-- The number of characters from its opening quote to the end of the
      document. -/
  distance : Nat

/-- A document in the order of its source. -/
inductive Tree where
  | null
  | boolean (value : Bool)
  | number (value : Number)
  | string (text : String)
  | array (items : List Tree)
  | object (members : List (Name × Tree))
  deriving Inhabited

/-- A JSON value. -/
inductive Value where
  | null
  | boolean (value : Bool)
  | number (value : Number)
  | string (text : String)
  | array (items : List Value)
  | object (members : List (String × Value))
  deriving Inhabited

mutual

/-- What a document means. -/
def Tree.value : Tree → Value
  | .null => .null
  | .boolean value => .boolean value
  | .number value => .number value
  | .string text => .string text
  | .array items => .array (Tree.values items)
  | .object members => .object (Tree.resolve members [])
termination_by structural tree => tree

/-- What the items of an array mean. -/
def Tree.values : List Tree → List Value
  | [] => []
  | item :: items => item.value :: Tree.values items
termination_by structural items => items

/-- Add members in source order to an ordered list of members. -/
def Tree.resolve : List (Name × Tree) → List (String × Value) → List (String × Value)
  | [], known => known
  | (name, tree) :: members, known =>
    Tree.resolve members (Assoc.insert name.text tree.value known)
termination_by structural members => members

end

/-- The words for the type of a value. -/
def Value.kind : Value → String
  | .null => "null"
  | .boolean _ => "a boolean"
  | .number _ => "a number"
  | .string _ => "a string"
  | .array _ => "an array"
  | .object _ => "an object"

end Json

end Phrasebook
