import Phrasebook.Catalogue.Entry
import Phrasebook.Catalogue.Placement
import Phrasebook.Config.Basic

/-!
# Groups of Messages

Entries arranged by package and inner group. In a group no message has the name
of an inner group, so a path of names leads to one thing.

## Main definitions

* `Group`: Messages and groups by name.
* `Group.add`: Add an entry below a path of groups.
* `Catalogue`: The groups of all packages.
* `Catalogue.ofEntries`: The catalogue of entries by key.
* `Catalogue.entryAt?`: The entry at a placement.
* `Catalogue.located`: All groups with the place that each has.
* `Group.size`, `Catalogue.size`: The number of messages.
-/

namespace Phrasebook

/-- Messages and inner groups, both by ascending name. -/
inductive Group where
  | node (messages : Dict Entry) (groups : List (String × Group))

namespace Group

/-- The group without messages. -/
def empty : Group := .node .empty []

instance : Inhabited Group := ⟨empty⟩

/-- The messages of a group, without those of inner groups. -/
def messages : Group → Dict Entry
  | .node messages _ => messages

/-- The inner groups of a group. -/
def groups : Group → List (String × Group)
  | .node _ groups => groups

/-- The inner group with a name. -/
def group? (g : Group) (name : String) : Option Group := g.groups.lookup name

/-- The group at the end of a path of inner groups. -/
def below? (g : Group) : (path : List String) → Option Group
  | [] => some g
  | inner :: path => (g.group? inner).bind (fun inside => inside.below? path)

mutual

/-- The group to which the path `above` leads, followed by the groups inside it,
    each with the path that leads to it. -/
def located (above : List String) : Group → List (List String × Group)
  | .node messages groups => (above, .node messages groups) :: locatedInGroups above groups
termination_by structural g => g

/-- Some groups of the group to which `above` leads, each followed by the groups
    inside it. -/
def locatedInGroups (above : List String) : List (String × Group) → List (List String × Group)
  | [] => []
  | (inner, g) :: groups => g.located (above ++ [inner]) ++ locatedInGroups above groups
termination_by structural groups => groups

end

mutual

/-- The number of messages in a group and inside it. -/
def size : Group → Nat
  | .node messages groups => messages.size + sizeOfGroups groups
termination_by structural g => g

/-- The number of messages in some groups. -/
def sizeOfGroups : List (String × Group) → Nat
  | [] => 0
  | (_, g) :: groups => g.size + sizeOfGroups groups
termination_by structural groups => groups

end

/-- The defect of a name that is taken in the group at `path`. -/
def taken (package : String) (path : List String) (name : String) : Defect :=
  .nameTaken package (Key.join (path ++ [name]))

/-- Add an entry to the group below `group` at a path; the path from the package
    to `group` is `above`. Groups that are missing on the path are made. -/
def add (package name : String) (entry : Entry) :
    (above path : List String) → (group : Group) → Except Defect Group
  | above, [], group =>
    if group.messages.contains name || (group.group? name).isSome then
      .error (taken package above name)
    else .ok (.node (group.messages.insert name entry) group.groups)
  | above, inner :: path, group =>
    if group.messages.contains inner then .error (taken package above inner)
    else do
      let changed ←
        add package name entry (above ++ [inner]) path ((group.group? inner).getD .empty)
      return .node group.messages (Assoc.insert inner changed group.groups)

end Group

/-- The groups of all packages. -/
structure Catalogue where
  packages : Dict Group

namespace Catalogue

/-- The catalogue without packages. -/
def empty : Catalogue := ⟨.empty⟩

/-- The number of messages in a catalogue. -/
def size (c : Catalogue) : Nat := Group.sizeOfGroups c.packages.pairs

/-- The entry at a placement. -/
def entryAt? (c : Catalogue) (place : Placement) : Option Entry :=
  (c.packages.get? place.package).bind (fun package =>
    (package.below? place.groups).bind (fun group => group.messages.get? place.name))

/-- A group with its package and the path of inner groups that leads to it. -/
structure Located where
  package : String
  path : List String
  group : Group

/-- All groups, package by package, each in front of the groups inside it. -/
def located (c : Catalogue) : List Located :=
  c.packages.pairs.flatMap (fun (package, g) =>
    (g.located []).map (fun (path, group) => ⟨package, path, group⟩))

/-- Add the entry of a key to a catalogue. -/
def add (suffix? : Option String) (c : Catalogue) (key : String) (entry : Entry) :
    Except Defect Catalogue := do
  let place ← Placement.ofKey suffix? key
  let group := (c.packages.get? place.package).getD .empty
  let changed ← group.add place.package place.name entry [] place.groups
  return ⟨c.packages.insert place.package changed⟩

/-- The catalogue of entries by key. -/
def ofEntries (config : Config) (entries : Dict Entry) : Except Defect Catalogue :=
  entries.pairs.foldlM (fun c (key, entry) => c.add config.groupSuffix? key entry) .empty

end Catalogue

end Phrasebook
