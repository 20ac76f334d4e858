import Phrasebook.Emission.Manifest
import Phrasebook.Json.Printer

/-!
# Printing Manifests

A manifest as JSON. Every phrase is written piece by piece for programs, and once
more as one text for readers.

## Main definitions

* `Manifest.toJson`: A manifest as a JSON value.
* `Manifest.print`: The text of a manifest.
-/

namespace Phrasebook

open Json (Value)

/-- A locale and its constant as a JSON value. -/
def LocaleConstant.toJson (l : LocaleConstant) : Value :=
  .object [("locale", .string l.locale), ("constant", .string l.constant)]

/-- An interface as a JSON value. -/
def Capability.toJson (c : Capability) : Value :=
  .object
    [("name", .string c.name), ("operation", .string c.operation),
     ("parameterType", .string c.parameterType), ("returnType", .string c.returnType)]

/-- A template as a JSON value. -/
def Template.toJson (t : Template) : Value :=
  .object [("prefix", .string t.lead), ("suffix", .string t.trail)]

/-- A piece of a phrase as a JSON value. -/
def Piece.toJson : Piece → Value
  | literal text => .object [("kind", .string "literal"), ("text", .string text)]
  | slot name template =>
    .object
      [("kind", .string "argument"), ("variable", .string name), ("format", template.toJson)]

/-- A phrase as a JSON value. -/
def Phrase.toJson (p : Phrase) : Value := .array (p.pieces.map Piece.toJson)

/-- A field as a JSON value. -/
def Field.toJson (f : Field) : Value :=
  .object [("name", .string f.name), ("typeName", .string f.typeName)]

/-- The members that tell the shape of a message type. -/
def Shape.members : Shape → List (String × Value)
  | single => [("kind", .string "singleton")]
  | record fields =>
    [("kind", .string "structure"), ("fields", .array (fields.map Field.toJson))]

/-- An arm as a JSON value. -/
def Arm.toJson (a : Arm) : Value :=
  .object
    [("locales", .array (a.locales.map LocaleConstant.toJson)), ("text", a.phrase.toJson),
     ("display", .string a.phrase.display)]

/-- A message type as a JSON value. -/
def MessageRecord.toJson (m : MessageRecord) : Value :=
  .object
    ([("name", .string m.name), ("qualifiedTypeName", .string m.qualifiedType)] ++
      m.shape.members ++ [("dispatch", .array (m.arms.map Arm.toJson))])

mutual

/-- The members that tell the types of a group. -/
def GroupRecord.members : GroupRecord → List (String × Value)
  | .node messages groups =>
    [("messages", .array (messages.map MessageRecord.toJson)),
     ("innerGroups", .array (GroupRecord.values groups))]
termination_by structural g => g

/-- Inner groups as JSON values. -/
def GroupRecord.values : List (GroupNames × GroupRecord) → List Value
  | [] => []
  | (names, g) :: groups =>
    .object (("name", .string names.name) :: ("typeName", .string names.typeName) :: g.members) ::
      GroupRecord.values groups
termination_by structural groups => groups

end

/-- A package as a JSON value. -/
def PackageRecord.toJson (p : PackageRecord) : Value :=
  .object
    (("path", .string p.path) :: ("qualifiedName", .string p.qualifiedName) :: p.body.members)

namespace Manifest

/-- A manifest as a JSON value. -/
def toJson (m : Manifest) : Value :=
  .object
    [("metaPackage", .string Naming.basePackage),
     ("localeEnum",
       .object
         [("name", .string Naming.localeEnumeration),
          ("constants", .array (m.locales.map LocaleConstant.toJson))]),
     ("defaultLocale",
       .object
         [("name", .string Naming.defaultLocale), ("value", m.defaultLocale.toJson)]),
     ("capability", Naming.capability.toJson),
     ("packages", .array (m.packages.map PackageRecord.toJson))]

/-- The text of a manifest. -/
def print (m : Manifest) : String := m.toJson.print

end Manifest

end Phrasebook
