import Phrasebook.Emission.Manifest
import Phrasebook.Proofs.Key

/-!
# Qualified Names in a Manifest

A manifest works out its names on the way down: a package has a qualified name, and
each group on a path adds its type to the name of the one above. All these names
are texts. What can be said of them is said of lists of segments, and this module
is the passage: the name of a package is the base package and the segments of its
path, and a name inside a parent is one more segment.

With that the records of a group, listed from the outermost inwards, are the groups
themselves as they are listed, each with the segments that its path adds.
`GroupRecord.listed_ofGroup` says so, by induction on the group and, at the same
time, on the list of groups inside it.

## Main definitions

* `Naming.baseSegments`: The segments of the base package.
* `GroupRecord.listed`, `Manifest.listed`: All records with the qualified names of
  their groups.
* `GroupRecord.ofPath`: The record of the group at a path.
* `Manifest.messageTypes`, `Manifest.groupTypes`: The qualified names of messages
  and of inner groups.

## Theorems

* `Naming.qualifiedPackage_eq`, `Naming.qualify_join`: Qualified names as segments.
* `GroupRecord.listed_ofGroup`: The record of a group lists what the group lists.
* `GroupRecord.messages_ofGroup`, `GroupRecord.groups_ofGroup`: What the record of a
  group holds itself.
-/

namespace Phrasebook

namespace Naming

/-- The segments of the base package, if there is one. -/
def baseSegments (config : Config) : List String :=
  if config.withBasePackage then ["i18n", "generated"] else []

theorem isSegment_baseSegments (config : Config) : ∀ s ∈ baseSegments config, Key.IsSegment s := by
  unfold baseSegments
  by_cases hbase : config.withBasePackage = true
  · rw [if_pos hbase]
    decide
  · rw [if_neg hbase]
    intro s hs
    exact absurd hs List.not_mem_nil

/-- The full name of a package is made of the base package and its segments. -/
theorem qualifiedPackage_eq (config : Config) (path : String) :
    qualifiedPackage config path = Key.join (baseSegments config ++ Key.path path) := by
  unfold qualifiedPackage baseSegments
  by_cases hbase : config.withBasePackage = true
  · rw [if_pos hbase, if_pos hbase]
    have hjoin : basePackage = Key.join ["i18n", "generated"] := rfl
    by_cases hempty : path = ""
    · rw [if_pos (String.isEmpty_iff.mpr hempty), Key.path, if_pos hempty, List.append_nil, hjoin]
    · rw [if_neg (fun h => hempty (String.isEmpty_iff.mp h))]
      -- A package that is named has a segment, so a separator stands between.
      have hne : Key.path path ≠ [] := by
        intro hnil
        have hback := Key.join_path path
        rw [hnil] at hback
        exact hempty hback.symm
      rw [Key.join_append _ _ (List.cons_ne_nil _ _) hne, Key.join_path, hjoin]
  · rw [if_neg hbase, if_neg hbase, List.nil_append, Key.join_path]

/-- A name inside a parent is the next segment. -/
theorem qualify_join (parts : List String) (name : String) (h : "" ∉ parts) :
    qualify (Key.join parts) name = Key.join (parts ++ [name]) := by
  unfold qualify
  -- Only the empty path joins to the empty text, for which no separator is written.
  have hempty := Key.join_eq_empty_iff parts h
  by_cases hnil : parts = []
  · rw [if_pos (String.isEmpty_iff.mpr (hempty.mpr hnil)), hnil, List.nil_append, Key.join,
      String.intercalate_singleton]
  · rw [if_neg (fun he => hnil (hempty.mp (String.isEmpty_iff.mp he))),
      Key.join_append_singleton parts name hnil]

theorem groupType_injective (name name' : String) (h : groupType name = groupType name') :
    name = name' := by
  have hlists := congrArg String.toList h
  unfold groupType at hlists
  rw [String.toList_append, String.toList_append] at hlists
  exact String.toList_inj.mp (List.append_cancel_left hlists)

theorem typePrefix_prefix_groupType (name : String) :
    typePrefix.toList <+: (groupType name).toList := by
  unfold groupType
  rw [String.toList_append]
  exact List.prefix_append _ _

theorem messageType_injective (inGroup : Bool) (name name' : String)
    (h : messageType name inGroup = messageType name' inGroup) : name = name' := by
  cases inGroup with
  | true => exact h
  | false => exact groupType_injective name name' h

theorem isSegment_groupType (name : String) (h : Key.IsSegment name) :
    Key.IsSegment (groupType name) := by
  unfold groupType
  constructor
  -- The prefix is not empty and has no separator, so only the name could have one.
  · intro hempty
    have hlists := congrArg String.toList hempty
    rw [String.toList_append] at hlists
    exact List.cons_ne_nil _ _ hlists
  · rw [String.toList_append, List.mem_append]
    rintro (hfront | hname)
    · revert hfront
      decide
    · exact h.2 hname

theorem empty_not_mem_append (root above : List String) (hroot : "" ∉ root) :
    "" ∉ root ++ above.map groupType := by
  intro hmem
  rcases List.mem_append.mp hmem with hmem | hmem
  · exact hroot hmem
  · rcases List.mem_map.mp hmem with ⟨name, -, hname⟩
    have hlists := congrArg String.toList hname
    unfold groupType at hlists
    rw [String.toList_append] at hlists
    exact List.cons_ne_nil _ _ hlists

theorem isSegment_messageType (inGroup : Bool) (name : String) (h : Key.IsSegment name) :
    Key.IsSegment (messageType name inGroup) := by
  cases inGroup with
  | true => exact h
  | false => exact isSegment_groupType name h

end Naming

namespace GroupRecord

/-- The messages of a record. -/
def messages : GroupRecord → List MessageRecord
  | .node messages _ => messages

/-- The inner groups of a record. -/
def groups : GroupRecord → List (GroupNames × GroupRecord)
  | .node _ groups => groups

mutual

/-- A record, whose group has the qualified name `parent`, followed by the records
    inside it, each with the qualified name of its group. -/
def listed (parent : String) : GroupRecord → List (String × GroupRecord)
  | .node messages groups => (parent, .node messages groups) :: listedInGroups parent groups
termination_by structural r => r

/-- Some inner groups of the record of `parent`, each followed by those inside. -/
def listedInGroups (parent : String) :
    List (GroupNames × GroupRecord) → List (String × GroupRecord)
  | [] => []
  | (names, r) :: groups =>
    r.listed (Naming.qualify parent names.typeName) ++ listedInGroups parent groups
termination_by structural groups => groups

end

/-- The record of the group at a path, with its qualified name, when `root` are the
    segments of its package. -/
def ofPath (config : Config) (root : List String) (located : List String × Group) :
    String × GroupRecord :=
  let parent := Key.join (root ++ located.1.map Naming.groupType)
  (parent, ofGroup config parent (!located.1.isEmpty) located.2)

mutual

/-- The record of a group lists what the group lists. -/
theorem listed_ofGroup (config : Config) (root : List String) (hroot : "" ∉ root) :
    (above : List String) → (g : Group) →
    (ofPath config root (above, g)).2.listed (ofPath config root (above, g)).1 =
      (g.located above).map (ofPath config root)
  | above, .node messages groups => by
      rw [Group.located, List.map_cons, ← listedInGroups_ofGroups config root hroot above groups]
      rfl

theorem listedInGroups_ofGroups (config : Config) (root : List String) (hroot : "" ∉ root) :
    (above : List String) → (groups : List (String × Group)) →
    listedInGroups (ofPath config root (above, .empty)).1
        (ofGroups config (ofPath config root (above, .empty)).1 groups) =
      (Group.locatedInGroups above groups).map (ofPath config root)
  | above, [] => rfl
  | above, (name, g) :: groups => by
      -- One level down the path has grown by a name and the scope by its type.
      have hparent : Naming.qualify (ofPath config root (above, .empty)).1
          (Naming.groupType name) = (ofPath config root (above ++ [name], g)).1 := by
        unfold ofPath
        rw [Naming.qualify_join _ _ (Naming.empty_not_mem_append root above hroot), List.map_append,
          ← List.append_assoc]
        rfl
      have hinner : (!(above ++ [name]).isEmpty) = true := by
        cases above with
        | nil => rfl
        | cons outer above => rfl
      have hrecord : ofGroup config (ofPath config root (above ++ [name], g)).1 true g =
          (ofPath config root (above ++ [name], g)).2 := by
        rw [← hinner]
        rfl
      rw [ofGroups, listedInGroups, Group.locatedInGroups, List.map_append, hparent, hrecord,
        listed_ofGroup config root hroot (above ++ [name]) g,
        listedInGroups_ofGroups config root hroot above groups]

end

theorem ofGroups_eq (config : Config) (parent : String) (groups : List (String × Group)) :
    ofGroups config parent groups = groups.map (fun (name, g) =>
      (⟨name, Naming.groupType name⟩,
        ofGroup config (Naming.qualify parent (Naming.groupType name)) true g)) := by
  induction groups with
  | nil => rfl
  | cons head rest ih =>
      rw [ofGroups, ih]
      rfl

theorem messages_ofGroup (config : Config) (parent : String) (inGroup : Bool) (g : Group) :
    (ofGroup config parent inGroup g).messages = g.messages.pairs.map (fun (name, e) =>
      MessageRecord.ofEntry config parent inGroup name e) := by
  cases g with
  | node messages groups => rfl

theorem groups_ofGroup (config : Config) (parent : String) (inGroup : Bool) (g : Group) :
    (ofGroup config parent inGroup g).groups = g.groups.map (fun (name, inner) =>
      (⟨name, Naming.groupType name⟩,
        ofGroup config (Naming.qualify parent (Naming.groupType name)) true inner)) := by
  cases g with
  | node messages groups => exact ofGroups_eq config parent groups

end GroupRecord

namespace Manifest

/-- All records of a manifest with the qualified names of their groups. -/
def listed (m : Manifest) : List (String × GroupRecord) :=
  m.packages.flatMap (fun package => package.body.listed package.qualifiedName)

/-- The qualified names of the types of all messages. -/
def messageTypes (m : Manifest) : List String :=
  m.listed.flatMap (fun (_, r) => r.messages.map MessageRecord.qualifiedType)

/-- The qualified names of all inner groups. -/
def groupTypes (m : Manifest) : List String :=
  m.listed.flatMap (fun (parent, r) =>
    r.groups.map (fun (names, _) => Naming.qualify parent names.typeName))

end Manifest

end Phrasebook
