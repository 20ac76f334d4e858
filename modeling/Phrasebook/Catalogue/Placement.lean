import Phrasebook.Locale.Key
import Phrasebook.Message.Defect
import Phrasebook.Text.Cut

/-!
# Placement of Keys

Where a message belongs. The last segment of a key is the name of the message,
and the segments in front of it name its package. With a suffix for inner groups
the package ends in front of the last segments that end with the suffix; these
are groups inside the package, named without the suffix.

## Main definitions

* `Placement`: A package, a path of inner groups, and a name.
* `Placement.ofKey`: The placement of a key.
-/

namespace Phrasebook

/-- Where a message belongs. -/
structure Placement where
  package : String
  /-- The groups inside the package, from the outermost. -/
  groups : List String
  name : String
  deriving DecidableEq

namespace Placement

/-- The segments of a key in front of its name, and the name. A key whose only
    separator stands in front has no package. -/
def splitName (key : String) : List String × String :=
  let segments := Key.segments key
  let front := segments.dropLast
  (if front = [""] then [] else front, segments.getLastD "")

/-- The group that a segment names, if it ends with the suffix. -/
def groupName? (suffix segment : String) : Option String :=
  (Text.dropSuffix? suffix.toList segment.toList).map String.ofList

/-- Take segments from the back as long as they end with the suffix: the groups
    that they name, from the outermost, and the segments in front of them, from
    the back. `groups` are those that were taken before. -/
def takeGroups (key suffix : String) (groups : List String) :
    List String → Except Defect (List String × List String)
  | [] => .ok (groups, [])
  | segment :: front =>
    match groupName? suffix segment with
    | none => .ok (groups, segment :: front)
    | some name =>
      if name.isEmpty then .error (.malformed key (.bareSuffix suffix))
      else takeGroups key suffix (name :: groups) front

/-- The placement of a key. -/
def ofKey (suffix? : Option String) (key : String) : Except Defect Placement := do
  let (front, name) := splitName key
  match suffix? with
  | none => return ⟨Key.join front, [], name⟩
  | some suffix =>
    let (groups, front) ← takeGroups key suffix [] front.reverse
    return ⟨Key.join front.reverse, groups, name⟩

end Placement

end Phrasebook
