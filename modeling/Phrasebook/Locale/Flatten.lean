import Phrasebook.Json.Value
import Phrasebook.Locale.Key
import Phrasebook.Message.Defect

/-!
# Flattening a Document

From a tree of objects to one dictionary of message texts. Objects with the same
path are merged, but no two texts may have the same key, and every value has to
be an object or a text. Members are visited by ascending name, so which of
several defects is reported does not depend on the order of the source.

## Main definitions

* `Locale.flatten`: The messages of a document by key.
-/

namespace Phrasebook

namespace Locale

open Json (Value)

mutual

/-- Add the value with the key `key` to the messages found before. -/
def flattenValue (key : String) (known : Dict String) : Value → Except Defect (Dict String)
  | .object members => flattenMembers (some key) known members
  | .string text =>
    if known.contains key then .error (.repeatedKey key) else .ok (known.insert key text)
  | other => .error (.malformed key (.leafNotText other.kind))
termination_by structural value => value

/-- Add the members of the object at `parent` to the messages found before. -/
def flattenMembers (parent : Option String) (known : Dict String) :
    List (String × Value) → Except Defect (Dict String)
  | [] => .ok known
  | (name, value) :: members =>
    if Key.isUnfinished (Key.extend parent name) then
      .error (.malformed (parent.getD "") (.emptySegment name))
    else
      match flattenValue (Key.extend parent name) known value with
      | .error defect => .error defect
      | .ok known => flattenMembers parent known members
termination_by structural members => members

end

/-- The messages of a document by key. -/
def flatten : Value → Except Defect (Dict String)
  | .object members => flattenMembers none .empty members
  | other => .error (.malformed "" (.rootNotObject other.kind))

end Locale

end Phrasebook
