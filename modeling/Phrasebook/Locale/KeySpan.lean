import Phrasebook.Json.Value
import Phrasebook.Locale.Key
import Phrasebook.Position
import Phrasebook.Text.Blank

/-!
# Spans of Keys

Where each key of a document stands in its source. Keys are formed from names as
in flattening, but from their spelling, in which escapes are not resolved and
from whose ends quotes are dropped. Only members of objects inside objects count,
not those inside an array. Of equal keys the last in the source has its place
recorded.

## Main definitions

* `Locale.nameSpan`: The span of a name with its quotes.
* `Locale.spans`: The spans of all keys of a document.
-/

namespace Phrasebook

namespace Locale

open Json (Name Tree)

/-- The spelling of a name without quotes at its ends. -/
def spelledName (name : Name) : String :=
  String.ofList (Text.trimBy (· == '"') name.spelling.toList)

/-- The span of a name of the document `text`, with its quotes. -/
def nameSpan (text : List Char) (name : Name) : Span :=
  let start := Position.after (text.take (text.length - name.distance))
  ⟨start, start.advanceText ('"' :: name.spelling.toList ++ ['"'])⟩

mutual

/-- Record the keys inside the value with the key `parent`. -/
def spansInValue (text : List Char) (parent : Option String) (known : Dict Span) :
    Tree → Dict Span
  | .object members => spansInMembers text parent known members
  | _ => known
termination_by structural tree => tree

/-- Record the keys of the members of the object at `parent`. -/
def spansInMembers (text : List Char) (parent : Option String) (known : Dict Span) :
    List (Name × Tree) → Dict Span
  | [] => known
  | (name, tree) :: members =>
    let key := Key.extend parent (spelledName name)
    let known := known.insert key (nameSpan text name)
    spansInMembers text parent (spansInValue text (some key) known tree) members
termination_by structural members => members

end

/-- The spans of all keys of a document with the text `text`. -/
def spans (text : String) (tree : Tree) : Dict Span := spansInValue text.toList none .empty tree

end Locale

end Phrasebook
