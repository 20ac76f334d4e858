import Phrasebook.Text.Blank

/-!
# Message Keys

A message is named by the path of names that leads to it in its document, joined
by dots. A name becomes a segment of a key by losing its dots and then the blanks
at its ends, so a dot in a key is always a separator.

## Main definitions

* `Key.normalize`: The segment that a name becomes.
* `Key.extend`: The key of a member below a key.
* `Key.isUnfinished`: Whether the last segment of a key is missing.
* `Key.join`, `Key.segments`: Segments as one text, and back.
-/

namespace Phrasebook

namespace Key

/-- What separates the segments of a key. -/
def separator : Char := '.'

/-- The segment that a name becomes: without dots, and then without blanks at
    its ends. -/
def normalize (name : String) : String :=
  String.ofList (Text.trim (name.toList.filter (· ≠ separator)))

/-- Segments joined by separators. -/
def join (segments : List String) : String := String.intercalate "." segments

/-- The segments of a key. -/
def segments (key : String) : List String :=
  (key.toList.splitOn separator).map String.ofList

/-- The key of a member that is called `name` in the object at `parent`, or in
    the document itself. -/
def extend (parent : Option String) (name : String) : String :=
  match parent with
  | some key => key ++ "." ++ normalize name
  | none => normalize name

/-- Whether the last segment of a key is missing: the key is empty, or ends with a
    separator. -/
def isUnfinished (key : String) : Bool :=
  key.isEmpty || key.toList.getLast? = some separator

end Key

end Phrasebook
