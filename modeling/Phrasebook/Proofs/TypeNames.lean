import Mathlib.Data.List.Nodup
import Mathlib.Data.List.Pairwise
import Phrasebook.Catalogue.Compile
import Phrasebook.Config.Validation
import Phrasebook.Proofs.Catalogue
import Phrasebook.Proofs.Manifest
import Phrasebook.Proofs.Merge

/-!
# When Type Names Collide

A manifest gives every type a qualified name, and a group sees to it that the
plain names in it are different. The two do not quite meet. The qualified name of
a type is its scope, the base package, package and inner groups in one list of
segments, and then its own name. Nothing in that list tells where the package
ends and the groups begin except the prefix of groups, and a package may have
segments with that prefix too. So a message of the group `g` in the package `a`
can have the name of a message of the package `a.I18n_g`.

That is the only way for two places to share a scope: `scope_eq_iff` says that one
of them then stands in a package that continues the other's by the types of its
outer groups. Within one place the prefix can be part of the name of a message as
well. `compile_typeNames` says exactly when names collide, and that they never do
if packages and messages of inner groups stay away from the prefix.

## Main definitions

* `Catalogue.Located.scope`: The segments in front of the names in a group.
* `Catalogue.Located.messageNames`, `Catalogue.Located.groupNames`: The names of the
  types in a group.
* `Catalogue.Located.Overlaps`: A package continues another by the types of groups.
* `Catalogue.AvoidsPrefix`: Names that could be mistaken for types do not occur.

## Theorems

* `Catalogue.Located.scope_eq_iff`: When two groups have one scope.
* `Catalogue.listed_ofCatalogue`: A manifest lists what its catalogue lists.
* `Catalogue.messageTypes_ofCatalogue`, `Catalogue.groupTypes_ofCatalogue`: All types
  are the names in each group, behind its scope.
* `Catalogue.nodup_messageTypes_iff`, `Catalogue.disjoint_types_iff`: When names
  of types are different.
* `compile_typeNames`: The same of all compiled messages.
* `messageTypes_collide`: Messages that do collide.
-/

namespace Phrasebook

namespace Catalogue

namespace Located

/-- The segments in front of the names of the types in a group. -/
def scope (config : Config) (l : Located) : List String :=
  Naming.baseSegments config ++ Key.path l.package ++ l.path.map Naming.groupType

/-- The names of the types of the messages in a group. -/
def messageNames (l : Located) : List String :=
  l.group.messages.keys.map (fun name => Naming.messageType name (!l.path.isEmpty))

/-- The names of the types of the groups in a group. -/
def groupNames (l : Located) : List String :=
  l.group.groups.map (fun (inner, _) => Naming.groupType inner)

/-- The qualified names that names have in a group. -/
def qualified (config : Config) (l : Located) (names : List String) : List String :=
  names.map (fun name => Key.join (l.scope config ++ [name]))

/-- The package of `l'` continues that of `l` by the types of outer groups of `l`,
    and the other groups on the path to `l` are the path to `l'`. -/
def Overlaps (l l' : Located) : Prop :=
  ∃ outer, outer ≠ [] ∧ l.path = outer ++ l'.path ∧
    Key.path l'.package = Key.path l.package ++ outer.map Naming.groupType

end Located

namespace Located

theorem isSegment_scope (config : Config) (l : Located) (h : l.Spelled) :
    ∀ s ∈ l.scope config, Key.IsSegment s := by
  intro s hs
  rcases List.mem_append.mp hs with hs | hs
  · rcases List.mem_append.mp hs with hs | hs
    · exact Naming.isSegment_baseSegments config s hs
    · exact h.package s hs
  · rcases List.mem_map.mp hs with ⟨name, hname, rfl⟩
    exact Naming.isSegment_groupType name (h.path name hname)

theorem isSegment_messageNames (l : Located) (h : l.Spelled) :
    ∀ name ∈ l.messageNames, Key.IsSegment name := by
  intro name hname
  rcases List.mem_map.mp hname with ⟨plain, hplain, rfl⟩
  exact Naming.isSegment_messageType _ plain (h.messages plain hplain)

theorem isSegment_groupNames (l : Located) (h : l.Spelled) :
    ∀ name ∈ l.groupNames, Key.IsSegment name := by
  intro name hname
  rcases List.mem_map.mp hname with ⟨pair, hpair, rfl⟩
  exact Naming.isSegment_groupType pair.1 (h.groups pair hpair)

/-- In one direction: if the scope of `l` starts with the package of `l'` or goes
    on where that ends. -/
theorem eq_or_overlaps_of_append (l l' : Located) (middle : List String)
    (hpackage : Key.path l'.package = Key.path l.package ++ middle)
    (hpath : l.path.map Naming.groupType = middle ++ l'.path.map Naming.groupType) :
    (l.package = l'.package ∧ l.path = l'.path) ∨ l.Overlaps l' := by
  rcases List.map_eq_append_iff.mp hpath with ⟨outer, rest, hsplit, rfl, hrest⟩
  have hsame : rest = l'.path :=
    List.map_injective_iff.mpr (fun name name' => Naming.groupType_injective name name') hrest
  subst hsame
  -- Nothing moved from the path to the package means the same place.
  by_cases houter : outer = []
  · left
    subst houter
    rw [List.map_nil, List.append_nil] at hpackage
    have hjoin := congrArg Key.join hpackage
    rw [Key.join_path, Key.join_path] at hjoin
    exact ⟨hjoin.symm, hsplit⟩
  · right
    exact ⟨outer, houter, hsplit, hpackage⟩

/-- Two groups have one scope exactly if they are at one place or one overlaps the
    other. -/
theorem scope_eq_iff (config : Config) (l l' : Located) :
    l.scope config = l'.scope config ↔
      (l.package = l'.package ∧ l.path = l'.path) ∨ l.Overlaps l' ∨ l'.Overlaps l := by
  unfold scope
  rw [List.append_assoc, List.append_assoc, List.append_cancel_left_eq]
  constructor
  · intro h
    -- One of the two packages is as long as the other or longer.
    rcases List.append_eq_append_iff.mp h with ⟨middle, hpackage, hpath⟩ | ⟨middle, hpackage, hpath⟩
    · rcases eq_or_overlaps_of_append l l' middle hpackage hpath with hsame | hoverlaps
      · exact Or.inl hsame
      · exact Or.inr (Or.inl hoverlaps)
    · rcases eq_or_overlaps_of_append l' l middle hpackage hpath with hsame | hoverlaps
      · exact Or.inl ⟨hsame.1.symm, hsame.2.symm⟩
      · exact Or.inr (Or.inr hoverlaps)
  · rintro (⟨hpackage, hpath⟩ | ⟨outer, -, hpath, hpackage⟩ | ⟨outer, -, hpath, hpackage⟩)
    · rw [hpackage, hpath]
    · rw [hpackage, hpath, List.map_append, List.append_assoc]
    · rw [hpackage, hpath, List.map_append, List.append_assoc]

/-- A group does not overlap itself. -/
theorem ne_of_overlaps (l l' : Located) (h : l.Overlaps l') : l ≠ l' := by
  rintro rfl
  rcases h with ⟨outer, houter, hpath, -⟩
  have hlength := congrArg List.length hpath
  rw [List.length_append] at hlength
  have hpos := List.length_pos_of_ne_nil houter
  omega

/-- In a package itself no message has the type of an inner group. -/
theorem disjoint_names_of_path_eq_nil (l : Located) (hsound : l.group.Sound)
    (hpath : l.path = []) : l.messageNames.Disjoint l.groupNames := by
  intro type hmessage hgroup
  rcases List.mem_map.mp hmessage with ⟨name, hname, rfl⟩
  rcases List.mem_map.mp hgroup with ⟨pair, hpair, heq⟩
  rw [hpath] at heq
  -- In a package both kinds are named by the same rule, so the plain names agree.
  have hsame := Naming.groupType_injective pair.1 name heq
  rcases (Dict.mem_keys_iff _ name).mp hname with ⟨entry, hentry⟩
  exact Group.not_mem_names l.group hsound name entry hentry
    (List.mem_map.mpr ⟨pair, hpair, hsame⟩)

/-- A qualified name determines its scope and its name. -/
theorem eq_of_join_scope (config : Config) (l l' : Located) (hl : l.Spelled) (hl' : l'.Spelled)
    (name name' : String) (hname : Key.IsSegment name) (hname' : Key.IsSegment name')
    (h : Key.join (l.scope config ++ [name]) = Key.join (l'.scope config ++ [name'])) :
    l.scope config = l'.scope config ∧ name = name' := by
  have hall : ∀ (l : Located), l.Spelled → ∀ name, Key.IsSegment name →
      ∀ s ∈ l.scope config ++ [name], Key.IsSegment s := by
    intro l hl name hname s hs
    rcases List.mem_append.mp hs with hs | hs
    · exact isSegment_scope config l hl s hs
    · rw [List.mem_singleton.mp hs]
      exact hname
  -- Without a separator in a segment, the joined name gives back the segments.
  have hparts := Key.eq_of_join_eq _ _ (hall l hl name hname) (hall l' hl' name' hname') h
  rcases List.append_inj' hparts rfl with ⟨hscope, hsingle⟩
  exact ⟨hscope, (List.cons.inj hsingle).1⟩

/-- Qualified names are different unless both the scopes and the names are equal. -/
theorem disjoint_qualified_iff (config : Config) (l l' : Located) (hl : l.Spelled)
    (hl' : l'.Spelled) (names names' : List String) (hnames : ∀ name ∈ names, Key.IsSegment name)
    (hnames' : ∀ name ∈ names', Key.IsSegment name) :
    (l.qualified config names).Disjoint (l'.qualified config names') ↔
      (l.scope config = l'.scope config → names.Disjoint names') := by
  constructor
  · intro hdisjoint hscope name hname hname'
    refine hdisjoint (List.mem_map.mpr ⟨name, hname, rfl⟩) (List.mem_map.mpr ⟨name, hname', ?_⟩)
    rw [hscope]
  · intro hdisjoint type htype htype'
    rcases List.mem_map.mp htype with ⟨name, hname, rfl⟩
    rcases List.mem_map.mp htype' with ⟨name', hname', heq⟩
    -- Equal qualified names have equal scopes and equal last segments.
    rcases eq_of_join_scope config l' l hl' hl name' name (hnames' name' hname')
      (hnames name hname) heq with ⟨hscope, hsame⟩
    rw [hsame] at hname'
    exact hdisjoint hscope.symm hname hname'

end Located

section Arranged

variable {suffix? : Option String} {entries : List (String × Entry)} {c : Catalogue}

theorem empty_not_mem_path (h : Arranges suffix? entries c)
    (hkeys : ∀ pair ∈ entries, Key.WellFormed pair.1) (package : String) (g : Group)
    (hpackage : (package, g) ∈ c.packages.pairs) : "" ∉ Key.path package := by
  have hget := (Dict.mem_pairs_iff c.packages package g).mp hpackage
  have hlocated := (mem_located_iff suffix? entries c h ⟨package, [], g⟩).mpr ⟨g, hget, rfl⟩
  exact Key.empty_not_mem _ (spelled_of_mem_located suffix? entries c h hkeys _ hlocated).package

/-- A manifest lists what its catalogue lists. -/
theorem listed_ofCatalogue (config : Config) (h : Arranges suffix? entries c)
    (hkeys : ∀ pair ∈ entries, Key.WellFormed pair.1) :
    (Manifest.ofCatalogue config c).listed = c.located.map (fun l =>
      GroupRecord.ofPath config (Naming.baseSegments config ++ Key.path l.package)
        (l.path, l.group)) := by
  unfold Manifest.listed Manifest.ofCatalogue located
  rw [List.flatMap_map, List.map_flatMap]
  refine List.flatMap_congr (fun ⟨package, g⟩ hmem => ?_)
  -- An empty segment would be taken for the package without a name.
  have hroot : "" ∉ Naming.baseSegments config ++ Key.path package := by
    intro hempty
    rcases List.mem_append.mp hempty with hbase | hpath
    · exact (Naming.isSegment_baseSegments config "" hbase).1 rfl
    · exact empty_not_mem_path h hkeys package g hmem hpath
  have hlisted := GroupRecord.listed_ofGroup config _ hroot [] g
  unfold GroupRecord.ofPath at hlisted
  rw [List.map_nil, List.append_nil, ← Naming.qualifiedPackage_eq] at hlisted
  rw [List.map_map]
  exact hlisted

/-- The types of messages are the names in each group, behind its scope. -/
theorem messageTypes_ofCatalogue (config : Config) (h : Arranges suffix? entries c)
    (hkeys : ∀ pair ∈ entries, Key.WellFormed pair.1) :
    (Manifest.ofCatalogue config c).messageTypes =
      c.located.flatMap (fun l => l.qualified config l.messageNames) := by
  unfold Manifest.messageTypes
  rw [listed_ofCatalogue config h hkeys, List.flatMap_map]
  refine List.flatMap_congr (fun l hl => ?_)
  have hspelled := spelled_of_mem_located suffix? entries c h hkeys l hl
  have hscope := Key.empty_not_mem _ (Located.isSegment_scope config l hspelled)
  refine (congrArg (List.map MessageRecord.qualifiedType)
    (GroupRecord.messages_ofGroup config _ _ l.group)).trans ?_
  unfold Located.qualified Located.messageNames Dict.keys
  rw [List.map_map, List.map_map, List.map_map]
  exact List.map_congr_left (fun pair _ => Naming.qualify_join _ _ hscope)

/-- The types of inner groups are the names of the groups in each group, behind
    its scope. -/
theorem groupTypes_ofCatalogue (config : Config) (h : Arranges suffix? entries c)
    (hkeys : ∀ pair ∈ entries, Key.WellFormed pair.1) :
    (Manifest.ofCatalogue config c).groupTypes =
      c.located.flatMap (fun l => l.qualified config l.groupNames) := by
  unfold Manifest.groupTypes
  rw [listed_ofCatalogue config h hkeys, List.flatMap_map]
  refine List.flatMap_congr (fun l hl => ?_)
  have hspelled := spelled_of_mem_located suffix? entries c h hkeys l hl
  have hscope := Key.empty_not_mem _ (Located.isSegment_scope config l hspelled)
  refine (congrArg (List.map (fun pair : GroupNames × GroupRecord => _))
    (GroupRecord.groups_ofGroup config _ _ l.group)).trans ?_
  unfold Located.qualified Located.groupNames
  rw [List.map_map, List.map_map]
  exact List.map_congr_left (fun pair _ => Naming.qualify_join _ _ hscope)

/-- Names in two listed groups become different types exactly if they are different,
    or the groups are different and do not overlap. -/
theorem disjoint_qualified_located_iff (config : Config) (h : Arranges suffix? entries c)
    (hkeys : ∀ pair ∈ entries, Key.WellFormed pair.1) (names names' : Located → List String)
    (hnames : ∀ l, l.Spelled → ∀ name ∈ names l, Key.IsSegment name)
    (hnames' : ∀ l, l.Spelled → ∀ name ∈ names' l, Key.IsSegment name)
    (l l' : Located) (hl : l ∈ c.located) (hl' : l' ∈ c.located) :
    (l.qualified config (names l)).Disjoint (l'.qualified config (names' l')) ↔
      (l = l' ∨ l.Overlaps l' ∨ l'.Overlaps l → (names l).Disjoint (names' l')) := by
  have hspelled := spelled_of_mem_located suffix? entries c h hkeys l hl
  have hspelled' := spelled_of_mem_located suffix? entries c h hkeys l' hl'
  rw [Located.disjoint_qualified_iff config l l' hspelled hspelled' _ _ (hnames l hspelled)
    (hnames' l' hspelled'), Located.scope_eq_iff]
  -- One scope is one place, or one of the two ways to overlap.
  refine imp_congr_left (or_congr_left ?_)
  constructor
  · intro hsame
    exact List.inj_on_of_nodup_map (nodup_located suffix? entries c h) hl hl'
      (Prod.ext hsame.1 hsame.2)
  · rintro rfl
    exact ⟨rfl, rfl⟩

/-- Messages have different types exactly if groups that overlap have no name in
    common. -/
theorem nodup_messageTypes_iff (config : Config) (h : Arranges suffix? entries c)
    (hkeys : ∀ pair ∈ entries, Key.WellFormed pair.1) :
    (Manifest.ofCatalogue config c).messageTypes.Nodup ↔
      ∀ l ∈ c.located, ∀ l' ∈ c.located, l.Overlaps l' →
        l.messageNames.Disjoint l'.messageNames := by
  have hdisjoint := disjoint_qualified_located_iff config h hkeys Located.messageNames
    Located.messageNames Located.isSegment_messageNames Located.isSegment_messageNames
  rw [messageTypes_ofCatalogue config h hkeys, List.nodup_flatMap]
  constructor
  · rintro ⟨-, hpairs⟩ l hl l' hl' hoverlaps
    have hne := Located.ne_of_overlaps l l' hoverlaps
    have : Std.Symm (Function.onFun List.Disjoint
        (fun l : Located => l.qualified config l.messageNames)) :=
      ⟨fun _ _ htypes => List.disjoint_symm htypes⟩
    exact (hdisjoint l l' hl hl').mp (hpairs.forall hl hl' hne) (Or.inr (Or.inl hoverlaps))
  · intro hnames
    constructor
    · -- In one group the plain names are different, and so are the types.
      intro l hl
      have hspelled := spelled_of_mem_located suffix? entries c h hkeys l hl
      have hsegment := Located.isSegment_messageNames l hspelled
      have hmessages : l.messageNames.Nodup :=
        (Dict.nodup_keys _).map (Naming.messageType_injective _)
      refine hmessages.map_on (fun name hname name' hname' heq => ?_)
      exact (Located.eq_of_join_scope config l l hspelled hspelled name name'
        (hsegment name hname) (hsegment name' hname') heq).2
    · refine List.Pairwise.imp_of_mem ?_
        (List.pairwise_map.mp (nodup_located suffix? entries c h))
      intro l l' hl hl' hplace
      refine (hdisjoint l l' hl hl').mpr (fun hplaces => ?_)
      rcases hplaces with heq | hoverlaps | hoverlaps
      · exact absurd (heq ▸ rfl) hplace
      · exact hnames l hl l' hl' hoverlaps
      · exact List.disjoint_symm (hnames l' hl' l hl hoverlaps)

/-- No message has the type of an inner group exactly if groups that overlap, and
    inner groups by themselves, have no name in common. -/
theorem disjoint_types_iff (config : Config) (h : Arranges suffix? entries c)
    (hkeys : ∀ pair ∈ entries, Key.WellFormed pair.1) :
    (Manifest.ofCatalogue config c).messageTypes.Disjoint
        (Manifest.ofCatalogue config c).groupTypes ↔
      ∀ l ∈ c.located, ∀ l' ∈ c.located,
        l.Overlaps l' ∨ l'.Overlaps l ∨ (l = l' ∧ l.path ≠ []) →
        l.messageNames.Disjoint l'.groupNames := by
  have hdisjoint := disjoint_qualified_located_iff config h hkeys Located.messageNames
    Located.groupNames Located.isSegment_messageNames Located.isSegment_groupNames
  rw [messageTypes_ofCatalogue config h hkeys, groupTypes_ofCatalogue config h hkeys]
  constructor
  · intro htypes l hl l' hl' hplaces
    refine (hdisjoint l l' hl hl').mp (fun type htype htype' => ?_) ?_
    · exact htypes (List.mem_flatMap.mpr ⟨l, hl, htype⟩) (List.mem_flatMap.mpr ⟨l', hl', htype'⟩)
    · rcases hplaces with hoverlaps | hoverlaps | ⟨heq, -⟩
      · exact Or.inr (Or.inl hoverlaps)
      · exact Or.inr (Or.inr hoverlaps)
      · exact Or.inl heq
  · intro hnames type htype htype'
    rcases List.mem_flatMap.mp htype with ⟨l, hl, hin⟩
    rcases List.mem_flatMap.mp htype' with ⟨l', hl', hin'⟩
    refine (hdisjoint l l' hl hl').mpr (fun hplaces => ?_) hin hin'
    rcases hplaces with heq | hoverlaps | hoverlaps
    · by_cases hpath : l.path = []
      · -- In a package both kinds have the prefix, and the plain names are different.
        rw [← heq]
        exact Located.disjoint_names_of_path_eq_nil l
          (sound_of_mem_located suffix? entries c h l hl).1 hpath
      · exact hnames l hl l' hl' (Or.inr (Or.inr ⟨heq, hpath⟩))
    · exact hnames l hl l' hl' (Or.inl hoverlaps)
    · exact hnames l hl l' hl' (Or.inr (Or.inl hoverlaps))

end Arranged

/-- No package has a segment with the prefix of types, and in inner groups no
    message has a name with it. -/
def AvoidsPrefix (c : Catalogue) : Prop :=
  ∀ l ∈ c.located, (∀ s ∈ Key.path l.package, ¬Naming.typePrefix.toList <+: s.toList) ∧
    (l.path ≠ [] → ∀ name ∈ l.group.messages.keys, ¬Naming.typePrefix.toList <+: name.toList)

instance (c : Catalogue) : Decidable c.AvoidsPrefix :=
  inferInstanceAs (Decidable (∀ l ∈ c.located, _ ∧ _))

/-- Without the prefix in packages no groups overlap. -/
theorem AvoidsPrefix.not_overlaps (c : Catalogue) (h : c.AvoidsPrefix) (l l' : Located)
    (hl' : l' ∈ c.located) : ¬l.Overlaps l' := by
  rintro ⟨outer, houter, -, hpackage⟩
  rcases List.exists_mem_of_ne_nil outer houter with ⟨name, hname⟩
  have hsegment : Naming.groupType name ∈ Key.path l'.package := by
    rw [hpackage]
    exact List.mem_append_right _ (List.mem_map.mpr ⟨name, hname, rfl⟩)
  exact (h l' hl').1 _ hsegment (Naming.typePrefix_prefix_groupType name)

/-- Without the prefix in messages of inner groups no inner group has a message
    with the type of a group. -/
theorem AvoidsPrefix.disjoint_names (c : Catalogue) (h : c.AvoidsPrefix) (l : Located)
    (hl : l ∈ c.located) (hpath : l.path ≠ []) : l.messageNames.Disjoint l.groupNames := by
  intro type hmessage hgroup
  rcases List.mem_map.mp hmessage with ⟨name, hname, rfl⟩
  rcases List.mem_map.mp hgroup with ⟨⟨inner, child⟩, -, heq⟩
  -- Below the package message names stay as they are, group names carry the prefix.
  have hinside : (!l.path.isEmpty) = true := by
    rw [List.isEmpty_eq_false_iff.mpr hpath, Bool.not_false]
  rw [hinside] at heq
  refine (h l hl).2 hpath name hname ?_
  have hname : Naming.groupType inner = name := heq
  rw [← hname]
  exact Naming.typePrefix_prefix_groupType inner

end Catalogue

/-- When the types of compiled messages have different names. Two messages have
    one name exactly if they have one plain name in groups that overlap. A message
    and an inner group have one name exactly if they have one plain name in groups
    that overlap or in the same inner group. So there are no two equal names if
    the prefix of types is avoided. -/
theorem compile_typeNames (config : Config) (base : Dict String) (editions : List Edition)
    (c : Catalogue) (hkeys : ∀ key ∈ base.keys, Key.WellFormed key)
    (h : compile config base editions = .ok c) :
    ((Manifest.ofCatalogue config c).messageTypes.Nodup ↔
      ∀ l ∈ c.located, ∀ l' ∈ c.located, l.Overlaps l' →
        l.messageNames.Disjoint l'.messageNames) ∧
    ((Manifest.ofCatalogue config c).messageTypes.Disjoint
        (Manifest.ofCatalogue config c).groupTypes ↔
      ∀ l ∈ c.located, ∀ l' ∈ c.located,
        l.Overlaps l' ∨ l'.Overlaps l ∨ (l = l' ∧ l.path ≠ []) →
        l.messageNames.Disjoint l'.groupNames) ∧
    (c.AvoidsPrefix → (Manifest.ofCatalogue config c).messageTypes.Nodup ∧
      (Manifest.ofCatalogue config c).messageTypes.Disjoint
        (Manifest.ofCatalogue config c).groupTypes) := by
  rcases (Fallible.bind_eq_ok_iff _ _ _).mp h with ⟨entries, hmerge, hentries⟩
  have harranges := Catalogue.arranges_ofEntries config entries c hentries
  -- The keys of the entries are those of the default messages.
  have hsegments : ∀ pair ∈ entries.pairs, Key.WellFormed pair.1 := by
    intro pair hpair
    apply hkeys
    rw [← Dict.keys_of_mapM _ base entries (mapM_of_merge config base editions entries hmerge)]
    exact List.mem_map.mpr ⟨pair, hpair, rfl⟩
  have hmessages := Catalogue.nodup_messageTypes_iff config harranges hsegments
  have hgroups := Catalogue.disjoint_types_iff config harranges hsegments
  -- Without the prefix in a name nothing overlaps, and inside a group names cannot meet.
  refine ⟨hmessages, hgroups, fun havoids => ⟨hmessages.mpr ?_, hgroups.mpr ?_⟩⟩
  · intro l _ l' hl' hoverlaps
    exact absurd hoverlaps (havoids.not_overlaps c l l' hl')
  · intro l hl l' hl' hplaces
    rcases hplaces with hoverlaps | hoverlaps | ⟨rfl, hpath⟩
    · exact absurd hoverlaps (havoids.not_overlaps c l l' hl')
    · exact absurd hoverlaps (havoids.not_overlaps c l' l hl)
    · exact havoids.disjoint_names c l hl hpath

/-- A package and an inner group of it, and no prefix in any name. -/
theorem compile_typeNames_menu : ∃ base c,
    base.keys = ["app.menu_nested.open", "app.title"] ∧
    compile .default base [] = .ok c ∧
    (Manifest.ofCatalogue .default c).messageTypes.Nodup := by
  let base : Dict String := .ofList [("app.menu_nested.open", "Open"), ("app.title", "Title")]
  have hkeys : ∀ key ∈ base.keys, Key.WellFormed key := by decide +kernel
  have havoids : (compile .default base []).toOption.any
      (fun c => decide c.AvoidsPrefix) = true := by decide +kernel
  cases h : compile .default base [] with
  | error defect =>
      rw [h] at havoids
      cases havoids
  | ok c =>
      rw [h] at havoids
      have htypes := (compile_typeNames .default base [] c hkeys h).2.2
        (of_decide_eq_true havoids)
      exact ⟨base, c, by decide +kernel, h, htypes.1⟩

/-- Names that collide. The package `a` has an inner group `g`, and there is a
    package that is called like the type of that group. The root package has an
    inner group `g` with a message that is called like the type of a group
    beside it. -/
theorem messageTypes_collide : ∃ base c, Config.default.Valid ∧
    (∀ key ∈ base.keys, Key.WellFormed key) ∧
    base.keys = ["a.I18n_g.n", "a.g_nested.I18n_n", "g_nested.I18n_x", "g_nested.x_nested.y"] ∧
    compile .default base [] = .ok c ∧
    (Manifest.ofCatalogue .default c).messageTypes =
      ["i18n.generated.I18n_g.I18n_x", "i18n.generated.I18n_g.I18n_x.y",
        "i18n.generated.a.I18n_g.I18n_n", "i18n.generated.a.I18n_g.I18n_n"] ∧
    (Manifest.ofCatalogue .default c).groupTypes =
      ["i18n.generated.I18n_g", "i18n.generated.I18n_g.I18n_x", "i18n.generated.a.I18n_g"] ∧
    ¬(Manifest.ofCatalogue .default c).messageTypes.Nodup ∧
    ¬(Manifest.ofCatalogue .default c).messageTypes.Disjoint
      (Manifest.ofCatalogue .default c).groupTypes := by
  let base : Dict String := .ofList [("a.I18n_g.n", "1"), ("a.g_nested.I18n_n", "2"),
    ("g_nested.I18n_x", "3"), ("g_nested.x_nested.y", "4")]
  have htypes : (compile .default base []).toOption.map (fun c =>
      ((Manifest.ofCatalogue .default c).messageTypes,
        (Manifest.ofCatalogue .default c).groupTypes)) =
      some (["i18n.generated.I18n_g.I18n_x", "i18n.generated.I18n_g.I18n_x.y",
        "i18n.generated.a.I18n_g.I18n_n", "i18n.generated.a.I18n_g.I18n_n"],
        ["i18n.generated.I18n_g", "i18n.generated.I18n_g.I18n_x", "i18n.generated.a.I18n_g"]) := by
    decide +kernel
  cases h : compile .default base [] with
  | error defect =>
      rw [h] at htypes
      cases htypes
  | ok c =>
      rw [h] at htypes
      rcases Prod.mk.inj (Option.some.inj htypes) with ⟨hmessages, hgroups⟩
      -- A package segment that carries the prefix reads like the type of a group, and a message
      -- inside a group keeps its own name.
      refine ⟨base, c, by decide +kernel, by decide +kernel, by decide +kernel, h, hmessages,
        hgroups, ?_, ?_⟩
      · rw [hmessages]
        decide
      · rw [hmessages, hgroups]
        intro hdisjoint
        exact hdisjoint List.mem_cons_self (List.mem_cons_of_mem _ List.mem_cons_self)

end Phrasebook
