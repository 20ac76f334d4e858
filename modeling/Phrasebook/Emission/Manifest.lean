import Phrasebook.Catalogue.Group
import Phrasebook.Emission.Dispatch

/-!
# Manifests

All that a generator of code has to know of a catalogue, with every name worked
out: the locales, and for each package its message types and inner groups.

## Main definitions

* `MessageRecord`: The type of a message.
* `GroupRecord`: The types of a group.
* `Manifest`: The types of all packages.
* `Manifest.ofCatalogue`: The manifest of a catalogue.
-/

namespace Phrasebook

/-- The type of a message. -/
structure MessageRecord where
  name : String
  qualifiedType : String
  shape : Shape
  arms : List Arm
  deriving DecidableEq

/-- The names of an inner group. -/
structure GroupNames where
  name : String
  typeName : String
  deriving DecidableEq

/-- The types of a group and of the groups inside it. -/
inductive GroupRecord where
  | node (messages : List MessageRecord) (groups : List (GroupNames × GroupRecord))

/-- The types of a package. -/
structure PackageRecord where
  path : String
  qualifiedName : String
  body : GroupRecord

/-- The locales and the types of all packages. -/
structure Manifest where
  locales : List LocaleConstant
  defaultLocale : LocaleConstant
  packages : List PackageRecord

namespace MessageRecord

/-- The type of a message inside `parent`. -/
def ofEntry (config : Config) (parent : String) (inGroup : Bool) (name : String) (e : Entry) :
    MessageRecord where
  name := name
  qualifiedType := Naming.qualify parent (Naming.messageType name inGroup)
  shape := e.shape
  arms := e.arms config

end MessageRecord

namespace GroupRecord

mutual

/-- The types of a group inside `parent`. -/
def ofGroup (config : Config) (parent : String) (inGroup : Bool) : Group → GroupRecord
  | .node messages groups =>
    .node
      (messages.pairs.map (fun (name, e) => MessageRecord.ofEntry config parent inGroup name e))
      (ofGroups config parent groups)
termination_by structural g => g

/-- The types of the inner groups of a group inside `parent`. -/
def ofGroups (config : Config) (parent : String) :
    List (String × Group) → List (GroupNames × GroupRecord)
  | [] => []
  | (name, g) :: groups =>
    let typeName := Naming.groupType name
    (⟨name, typeName⟩, ofGroup config (Naming.qualify parent typeName) true g) ::
      ofGroups config parent groups
termination_by structural groups => groups

end

end GroupRecord

namespace Manifest

/-- The manifest of a catalogue. -/
def ofCatalogue (config : Config) (c : Catalogue) : Manifest where
  locales := config.localeConstants
  defaultLocale := config.defaultConstant
  packages := c.packages.pairs.map (fun (path, g) =>
    let qualifiedName := Naming.qualifiedPackage config path
    ⟨path, qualifiedName, .ofGroup config qualifiedName false g⟩)

end Manifest

end Phrasebook
