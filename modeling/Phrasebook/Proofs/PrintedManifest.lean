import Phrasebook.Catalogue.Compile
import Phrasebook.Emission.Printer
import Phrasebook.Proofs.Catalogue
import Phrasebook.Proofs.Layout
import Phrasebook.Proofs.Merge

/-!
# The Text of a Manifest Determines It

A manifest is all that generators of code get to see, and they get it as a text.
So the text has to tell everything that was compiled. That it does is put together
from two facts: a value that is made of texts shows where each of its parts ends,
and the records of a manifest can be told apart by the values that stand for them.
The second goes record by record, from the inside outwards. It needs care in one
place, where the members of a shape stand in the middle of a message: how many
they are depends on the shape.

What a manifest tells is then compared with the catalogue. Qualified names, which
are made up for the generated code, are left out of the comparison, and what
remains of a group is its outline: where it stands, and the names, shapes and arms
of its messages. The outlines of a manifest are those of the groups that the
catalogue lists.

## Main definitions

* `Faithful`: Data is told apart by what stands for it in JSON.
* `GroupOutline`: What a manifest tells of a group.
* `Manifest.outlines`: The groups of a manifest.
* `Manifest.places`: The places of its message records.

## Theorems

* `Manifest.faithful_toJson`: Manifests are told apart by their JSON.
* `Manifest.print_injective`: Manifests that are printed alike are equal.
* `Manifest.outlines_ofCatalogue`: A manifest tells of all groups of its catalogue.
* `Manifest.perm_places`: There is one message record for each key.
* `Catalogue.shown_eq_some_iff`: What is found at a place is told by an outline.
* `print_tells_compiled`: The text of a manifest tells what was compiled.
-/

namespace Phrasebook

open Json (Value)

/-- What stands for data in JSON is made of texts, and tells the data apart. -/
structure Faithful {α : Type} (toJson : α → Value) : Prop where
  textual : ∀ x, (toJson x).Textual
  injective : Function.Injective toJson

theorem Faithful.map_inj {α : Type} {toJson : α → Value} (h : Faithful toJson) (xs ys : List α) :
    xs.map toJson = ys.map toJson ↔ xs = ys :=
  (List.map_injective_iff.mpr h.injective).eq_iff

theorem LocaleConstant.faithful_toJson : Faithful LocaleConstant.toJson where
  textual l := by simp [toJson]
  injective := by
    rintro ⟨locale, constant⟩ ⟨locale', constant'⟩ h
    simpa [toJson] using h

theorem Template.faithful_toJson : Faithful Template.toJson where
  textual t := by simp [toJson]
  injective := by
    rintro ⟨lead, trail⟩ ⟨lead', trail'⟩ h
    simpa [toJson] using h

theorem Piece.faithful_toJson : Faithful Piece.toJson where
  textual p := by
    cases p with
    | literal text => simp [toJson]
    | slot name template => simp [toJson, Template.faithful_toJson.textual]
  injective := by
    intro p p' h
    cases p with
    | literal text =>
        cases p' with
        | literal text' => simpa [toJson] using h
        | slot name' template' => simp [toJson] at h
    | slot name template =>
        cases p' with
        | literal text' => simp [toJson] at h
        | slot name' template' => simpa [toJson, Template.faithful_toJson.injective.eq_iff] using h

theorem Phrase.faithful_toJson : Faithful Phrase.toJson where
  textual p := by simp [toJson, Piece.faithful_toJson.textual]
  injective := by
    rintro ⟨pieces⟩ ⟨pieces'⟩ h
    simpa [toJson, Piece.faithful_toJson.map_inj] using h

theorem Field.faithful_toJson : Faithful Field.toJson where
  textual f := by simp [toJson]
  injective := by
    rintro ⟨name, typeName⟩ ⟨name', typeName'⟩ h
    simpa [toJson] using h

/-- Shapes are told apart by their members, of which only records have fields. -/
theorem Shape.members_inj (shape shape' : Shape) (h : shape.members = shape'.members) :
    shape = shape' := by
  cases shape with
  | single =>
      cases shape' with
      | single => rfl
      | record fields' => simp [members] at h
  | record fields =>
      cases shape' with
      | single => simp [members] at h
      | record fields' => simpa [members, Field.faithful_toJson.map_inj] using h

theorem Shape.textual_members (shape : Shape) : ∀ member ∈ shape.members, member.2.Textual := by
  cases shape with
  | single => simp [members]
  | record fields => simp [members, Field.faithful_toJson.textual]

theorem Arm.faithful_toJson : Faithful Arm.toJson where
  textual a := by
    simp [toJson, LocaleConstant.faithful_toJson.textual, Phrase.faithful_toJson.textual]
  injective := by
    rintro ⟨locales, phrase⟩ ⟨locales', phrase'⟩ h
    simp only [toJson, Value.object.injEq, List.cons.injEq, Prod.mk.injEq, true_and,
      Value.array.injEq, LocaleConstant.faithful_toJson.map_inj] at h
    rw [h.1, Phrase.faithful_toJson.injective h.2.1]

theorem MessageRecord.faithful_toJson : Faithful MessageRecord.toJson where
  textual m := by
    rw [toJson, Value.textual_object_iff, List.forall_mem_append, List.forall_mem_append]
    exact ⟨⟨by simp, m.shape.textual_members⟩, by simp [Arm.faithful_toJson.textual]⟩
  injective := by
    rintro ⟨name, qualifiedType, shape, arms⟩ ⟨name', qualifiedType', shape', arms'⟩ h
    rw [toJson, toJson, Value.object.injEq] at h
    -- The arms come last, whatever members the shape has.
    rcases List.append_inj' h rfl with ⟨hfront, harms⟩
    rcases List.append_inj hfront rfl with ⟨hnames, hshape⟩
    simp only [List.cons.injEq, Prod.mk.injEq, Value.string.injEq, Value.array.injEq,
      Arm.faithful_toJson.map_inj, true_and, and_true] at hnames harms
    rw [hnames.1, hnames.2, Shape.members_inj shape shape' hshape, harms]

namespace GroupRecord

mutual

theorem textual_members : (r : GroupRecord) → ∀ member ∈ r.members, member.2.Textual
  | .node messages groups => by
      have hgroups := textual_values groups
      simpa [members, MessageRecord.faithful_toJson.textual] using hgroups

theorem textual_values :
    (groups : List (GroupNames × GroupRecord)) → ∀ value ∈ values groups, value.Textual
  | [] => by simp [values]
  | (names, r) :: groups => by
      have hr := textual_members r
      have hgroups := textual_values groups
      rw [values, List.forall_mem_cons, Value.textual_object_iff]
      exact ⟨by simpa using hr, hgroups⟩

end

mutual

/-- Records of groups are told apart by their members. -/
theorem members_inj : (r r' : GroupRecord) → r.members = r'.members → r = r'
  | .node messages groups, .node messages' groups' => by
      intro h
      simp only [members, List.cons.injEq, Prod.mk.injEq, Value.array.injEq, true_and, and_true,
        MessageRecord.faithful_toJson.map_inj] at h
      rw [h.1, values_inj groups groups' h.2]

theorem values_inj :
    (groups groups' : List (GroupNames × GroupRecord)) → values groups = values groups' →
      groups = groups'
  | [], [] => fun _ => rfl
  | [], (names', r') :: groups' => by
      -- One list is longer: an object stands against the empty list.
      intro h
      simp [values] at h
  | (names, r) :: groups, [] => by
      intro h
      simp [values] at h
  | (⟨name, typeName⟩, r) :: groups, (⟨name', typeName'⟩, r') :: groups' => by
      intro h
      simp only [values, List.cons.injEq, Value.object.injEq, Prod.mk.injEq, Value.string.injEq,
        true_and] at h
      rcases h with ⟨⟨hname, htype, hmembers⟩, hrest⟩
      rw [hname, htype, members_inj r r' hmembers, values_inj groups groups' hrest]

end

end GroupRecord

theorem PackageRecord.faithful_toJson : Faithful PackageRecord.toJson where
  textual p := by
    have hbody := p.body.textual_members
    rw [toJson, Value.textual_object_iff]
    simpa using hbody
  injective := by
    rintro ⟨path, qualifiedName, body⟩ ⟨path', qualifiedName', body'⟩ h
    simp only [toJson, Value.object.injEq, List.cons.injEq, Prod.mk.injEq, Value.string.injEq,
      true_and] at h
    rcases h with ⟨hpath, hname, hbody⟩
    rw [hpath, hname, GroupRecord.members_inj body body' hbody]

theorem Capability.textual_toJson (c : Capability) : c.toJson.Textual := by
  simp [toJson]

theorem Manifest.faithful_toJson : Faithful Manifest.toJson where
  textual m := by
    simp [toJson, LocaleConstant.faithful_toJson.textual, Capability.textual_toJson,
      PackageRecord.faithful_toJson.textual]
  injective := by
    rintro ⟨locales, defaultLocale, packages⟩ ⟨locales', defaultLocale', packages'⟩ h
    simp only [toJson, Value.object.injEq, List.cons.injEq, Prod.mk.injEq, Value.array.injEq,
      true_and, and_true, LocaleConstant.faithful_toJson.map_inj,
      LocaleConstant.faithful_toJson.injective.eq_iff, PackageRecord.faithful_toJson.map_inj] at h
    rw [h.1, h.2.1, h.2.2]

/-- Manifests that are printed alike are equal. -/
theorem Manifest.print_injective : Function.Injective Manifest.print := by
  intro m m' h
  exact Manifest.faithful_toJson.injective (Value.Textual.eq_of_print _ _
    (Manifest.faithful_toJson.textual m) (Manifest.faithful_toJson.textual m') h)

/-- A group as a manifest tells it: where it stands, and the name, the shape and
    the arms of each of its messages. -/
structure GroupOutline where
  package : String
  path : List String
  messages : List (String × Shape × List Arm)

/-- The places of the messages of a group. -/
def GroupOutline.places (o : GroupOutline) : List Placement :=
  o.messages.map (fun (name, _) => ⟨o.package, o.path, name⟩)

namespace GroupRecord

mutual

/-- A record, to whose group the path `above` leads, and the records inside it. -/
def outlines (package : String) (above : List String) : GroupRecord → List GroupOutline
  | .node messages groups =>
    ⟨package, above, messages.map (fun m => (m.name, m.shape, m.arms))⟩ ::
      outlinesInGroups package above groups
termination_by structural r => r

/-- Some inner groups of the record to which `above` leads, each followed by those
    inside. -/
def outlinesInGroups (package : String) (above : List String) :
    List (GroupNames × GroupRecord) → List GroupOutline
  | [] => []
  | (names, r) :: groups =>
    r.outlines package (above ++ [names.name]) ++ outlinesInGroups package above groups
termination_by structural groups => groups

end

end GroupRecord

namespace Manifest

/-- All groups of a manifest, package by package, each in front of those inside. -/
def outlines (m : Manifest) : List GroupOutline :=
  m.packages.flatMap (fun package => package.body.outlines package.path [])

/-- The places of the message records of a manifest. -/
def places (m : Manifest) : List Placement := m.outlines.flatMap GroupOutline.places

end Manifest

namespace Catalogue

/-- A group of a catalogue as its manifest tells it. -/
def Located.outline (config : Config) (l : Located) : GroupOutline :=
  ⟨l.package, l.path, l.group.messages.pairs.map (fun (name, e) => (name, e.shape, e.arms config))⟩

end Catalogue

namespace GroupRecord

mutual

/-- The record of a group outlines what the group lists. -/
theorem outlines_ofGroup (config : Config) (package parent : String) (inGroup : Bool)
    (above : List String) :
    (g : Group) → (ofGroup config parent inGroup g).outlines package above =
      (g.located above).map (fun (path, g) => (Catalogue.Located.mk package path g).outline config)
  | .node messages groups => by
      rw [ofGroup, outlines, Group.located, List.map_cons, List.map_map,
        outlinesInGroups_ofGroups config package parent above groups]
      rfl

theorem outlinesInGroups_ofGroups (config : Config) (package parent : String)
    (above : List String) :
    (groups : List (String × Group)) →
      outlinesInGroups package above (ofGroups config parent groups) =
        (Group.locatedInGroups above groups).map
          (fun (path, g) => (Catalogue.Located.mk package path g).outline config)
  | [] => rfl
  | (name, g) :: groups => by
      rw [ofGroups, outlinesInGroups, Group.locatedInGroups, List.map_append,
        outlines_ofGroup config package _ true (above ++ [name]) g,
        outlinesInGroups_ofGroups config package parent above groups]

end

end GroupRecord

/-- The manifest of a catalogue outlines what the catalogue lists. -/
theorem Manifest.outlines_ofCatalogue (config : Config) (c : Catalogue) :
    (ofCatalogue config c).outlines = c.located.map (Catalogue.Located.outline config) := by
  rw [outlines, ofCatalogue, Catalogue.located, List.flatMap_map, List.map_flatMap]
  refine List.flatMap_congr (fun pair _ => ?_)
  rw [GroupRecord.outlines_ofGroup, List.map_map]
  rfl

namespace Group

mutual

/-- The messages of a group are those of the groups that it lists. -/
theorem sum_located (above : List String) :
    (g : Group) → ((g.located above).map (fun (_, g) => g.messages.size)).sum = g.size
  | .node messages groups => by
      rw [located, List.map_cons, List.sum_cons, size, sum_locatedInGroups above groups]
      rfl

theorem sum_locatedInGroups (above : List String) :
    (groups : List (String × Group)) →
      ((locatedInGroups above groups).map (fun (_, g) => g.messages.size)).sum = sizeOfGroups groups
  | [] => rfl
  | (inner, g) :: groups => by
      rw [locatedInGroups, List.map_append, List.sum_append, sizeOfGroups,
        sum_located (above ++ [inner]) g, sum_locatedInGroups above groups]

end

end Group

namespace Manifest

theorem places_ofCatalogue (config : Config) (c : Catalogue) :
    (ofCatalogue config c).places =
      c.located.flatMap (fun l => l.group.messages.keys.map (Placement.mk l.package l.path)) := by
  rw [places, outlines_ofCatalogue, List.flatMap_map]
  refine List.flatMap_congr (fun l _ => ?_)
  rw [GroupOutline.places, Catalogue.Located.outline, List.map_map, Dict.keys, List.map_map]
  rfl

/-- There are as many message records as messages. -/
theorem length_places (config : Config) (c : Catalogue) :
    (ofCatalogue config c).places.length = c.size := by
  -- The places of a group are its own messages, so both sides are one sum over the located
  -- groups.
  rw [places_ofCatalogue, Catalogue.located, List.flatMap_assoc, List.length_flatMap,
    Catalogue.size_eq]
  refine congrArg List.sum (List.map_congr_left (fun pair _ => ?_))
  rw [List.flatMap_map, List.length_flatMap, ← Group.sum_located [] pair.2]
  refine congrArg List.sum (List.map_congr_left (fun located _ => ?_))
  rw [List.length_map, Dict.keys, List.length_map]
  rfl

variable {suffix? : Option String} {entries : List (String × Entry)} {c : Catalogue}

/-- Message records stand where entries are found. -/
theorem mem_places_iff (config : Config) (h : c.Arranges suffix? entries) (place : Placement) :
    place ∈ (ofCatalogue config c).places ↔ ∃ entry, c.entryAt? place = some entry := by
  rw [places_ofCatalogue, List.mem_flatMap]
  constructor
  · rintro ⟨l, hl, hplace⟩
    rcases List.mem_map.mp hplace with ⟨name, hname, rfl⟩
    rcases (Dict.mem_keys_iff _ name).mp hname with ⟨entry, hentry⟩
    exact ⟨entry, (Catalogue.entryAt?_eq_some_iff suffix? entries c h _ entry).mpr
      ⟨l, hl, rfl, rfl, hentry⟩⟩
  · rintro ⟨entry, hentry⟩
    rcases (Catalogue.entryAt?_eq_some_iff suffix? entries c h place entry).mp hentry with
      ⟨l, hl, hpackage, hpath, hname⟩
    -- The group that holds the entry is the one whose package and path the place names.
    refine ⟨l, hl, List.mem_map.mpr ⟨place.name, (Dict.mem_keys_iff _ _).mpr ⟨entry, hname⟩, ?_⟩⟩
    rw [hpackage, hpath]

/-- No two message records stand at one place. -/
theorem nodup_places (config : Config) (h : c.Arranges suffix? entries) :
    (ofCatalogue config c).places.Nodup := by
  rw [places_ofCatalogue, List.nodup_flatMap]
  constructor
  · intro l hl
    exact (Dict.nodup_keys _).map (fun name name' heq => congrArg Placement.name heq)
  · refine (List.pairwise_map.mp (Catalogue.nodup_located suffix? entries c h)).imp ?_
    intro l l' hne place hplace hplace'
    -- Messages of different groups differ in the package or in the path.
    rcases List.mem_map.mp hplace with ⟨name, -, rfl⟩
    rcases List.mem_map.mp hplace' with ⟨name', -, heq⟩
    rw [Placement.mk.injEq] at heq
    exact hne (Prod.ext heq.1.symm heq.2.1.symm)

/-- The message records stand at the places of the keys, one for each key. -/
theorem perm_places (config : Config) (h : c.Arranges suffix? entries) :
    ∃ places, (entries.map Prod.fst).mapM (Placement.ofKey suffix?) = .ok places ∧
      (ofCatalogue config c).places.Perm places := by
  -- Every key that was arranged has a placement, so the list of placements exists.
  have hplaced : ∀ key ∈ entries.map Prod.fst, ∃ place, Placement.ofKey suffix? key = .ok place := by
    intro key hkey
    rcases List.mem_map.mp hkey with ⟨⟨key, entry⟩, hmem, rfl⟩
    rcases h.placed key entry hmem with ⟨place, hplace, -⟩
    exact ⟨place, hplace⟩
  rcases (Fallible.exists_mapM_iff _ _).mpr hplaced with ⟨places, hplaces⟩
  have hall := (Fallible.mapM_eq_ok_iff _ _ _).mp hplaces
  -- Nothing is listed twice and there are as many places as keys: inclusion is enough.
  refine ⟨places, hplaces, ((nodup_places config h).subperm ?_).perm_of_length_le ?_⟩
  · intro place hplace
    rcases (mem_places_iff config h place).mp hplace with ⟨entry, hentry⟩
    rcases h.keyed place entry hentry with ⟨key, hmem, hkey⟩
    exact Fallible.mem_of_mapM _ _ places hplaces key (List.mem_map_of_mem hmem) place hkey
  · refine Nat.le_of_eq ?_
    rw [length_places, h.size, ← hall.length_eq, List.length_map]

end Manifest

/-- What is found at a place is told by the outline of its group. -/
theorem Catalogue.shown_eq_some_iff (config : Config) {suffix? : Option String}
    {entries : List (String × Entry)} {c : Catalogue} (h : c.Arranges suffix? entries)
    (place : Placement) (shown : Shape × List Arm) :
    (c.entryAt? place).map (fun e => (e.shape, e.arms config)) = some shown ↔
      ∃ o ∈ c.located.map (Located.outline config), o.package = place.package ∧
        o.path = place.groups ∧ (place.name, shown) ∈ o.messages := by
  rw [Option.map_eq_some_iff]
  constructor
  · rintro ⟨entry, hentry, rfl⟩
    rcases (entryAt?_eq_some_iff suffix? entries c h place entry).mp hentry with
      ⟨l, hl, hpackage, hpath, hname⟩
    refine ⟨_, List.mem_map_of_mem hl, hpackage, hpath, List.mem_map.mpr ⟨(place.name, entry), ?_⟩⟩
    exact ⟨(Dict.mem_pairs_iff _ _ _).mpr hname, rfl⟩
  · rintro ⟨o, ho, hpackage, hpath, hshown⟩
    rcases List.mem_map.mp ho with ⟨l, hl, rfl⟩
    -- The outline keeps the name, so the pair shown under it comes from an entry of that name.
    rcases List.mem_map.mp hshown with ⟨⟨name, entry⟩, hname, heq⟩
    cases heq
    refine ⟨entry, (entryAt?_eq_some_iff suffix? entries c h place entry).mpr ?_, rfl⟩
    exact ⟨l, hl, hpackage, hpath, (Dict.mem_pairs_iff _ _ _).mp hname⟩

/-- The text of a manifest tells what was compiled. Its message records stand at the
    places of the keys of the default messages, one for each key. And what else is
    compiled and printed alike has the same locales in the same order, the same
    default locale, and the same groups, package by package and each in front of
    those inside, with the same names of messages; at every place there is a message
    of the same shape and with the same arms, or none. -/
theorem print_tells_compiled (config : Config) (base : Dict String) (editions : List Edition)
    (c : Catalogue) (h : compile config base editions = .ok c) :
    (∃ places, base.keys.mapM (Placement.ofKey config.groupSuffix?) = .ok places ∧
      places.Nodup ∧ (Manifest.ofCatalogue config c).places.Perm places) ∧
    ∀ config' base' editions' c', compile config' base' editions' = .ok c' →
      (Manifest.ofCatalogue config c).print = (Manifest.ofCatalogue config' c').print →
      config.localeConstants = config'.localeConstants ∧
      config.defaultConstant = config'.defaultConstant ∧
      c.located.map (Catalogue.Located.outline config) =
        c'.located.map (Catalogue.Located.outline config') ∧
      ∀ place, (c.entryAt? place).map (fun e => (e.shape, e.arms config)) =
        (c'.entryAt? place).map (fun e => (e.shape, e.arms config')) := by
  rcases (Fallible.bind_eq_ok_iff _ _ _).mp h with ⟨entries, hmerge, hentries⟩
  have harranges := Catalogue.arranges_ofEntries config entries c hentries
  constructor
  · rcases Manifest.perm_places config harranges with ⟨places, hplaces, hperm⟩
    have hkeys := Dict.keys_of_mapM _ base entries
      (mapM_of_merge config base editions entries hmerge)
    rw [← hkeys]
    exact ⟨places, hplaces, hperm.nodup_iff.mp (Manifest.nodup_places config harranges), hperm⟩
  · intro config' base' editions' c' h' hprint
    rcases (Fallible.bind_eq_ok_iff _ _ _).mp h' with ⟨entries', -, hentries'⟩
    have harranges' := Catalogue.arranges_ofEntries config' entries' c' hentries'
    -- The text determines the manifest, and the outlines are read off the manifest alone.
    have hmanifest := Manifest.print_injective hprint
    have houtlines := congrArg Manifest.outlines hmanifest
    rw [Manifest.outlines_ofCatalogue, Manifest.outlines_ofCatalogue] at houtlines
    refine ⟨congrArg Manifest.locales hmanifest, congrArg Manifest.defaultLocale hmanifest,
      houtlines, fun place => Option.ext (fun shown => ?_)⟩
    -- What a place shows is stated over the outlines, which the two inputs share.
    rw [Catalogue.shown_eq_some_iff config harranges, houtlines,
      ← Catalogue.shown_eq_some_iff config' harranges']

/-- A type that is spelled out and a text that reads as the default one leave no
    trace in what is printed. -/
theorem print_tells_compiled_hello : ∃ base base' editions c c',
    base ≠ base' ∧ compile .default base [] = .ok c ∧
    compile .default base' editions = .ok c' ∧ editions ≠ [] ∧
    (Manifest.ofCatalogue .default c).print = (Manifest.ofCatalogue .default c').print ∧
    (Manifest.ofCatalogue .default c).places = [⟨"app", ["menu"], "hello"⟩] ∧
    c.located.map (Catalogue.Located.outline .default) =
      c'.located.map (Catalogue.Located.outline .default) := by
  let base : Dict String := .ofList [("app.menu_nested.hello", "Hallo {name}")]
  let base' : Dict String := .ofList [("app.menu_nested.hello", "Hallo {name:String}")]
  let editions : List Edition := [⟨"en", base⟩]
  -- The spelled out default type and the edition that says the same merge to the same entries.
  have hmerge : (merge .default base []).toOption = (merge .default base' editions).toOption := by
    decide +kernel
  have hok : (compile .default base []).isOk = true := by decide +kernel
  have hplace : (base.keys.mapM (Placement.ofKey Config.default.groupSuffix?)).toOption =
      some [⟨"app", ["menu"], "hello"⟩] := by decide +kernel
  cases h : compile .default base [] with
  | error defect =>
      rw [h] at hok
      cases hok
  | ok c =>
      have h' : compile .default base' editions = .ok c := by
        rcases (Fallible.bind_eq_ok_iff _ _ _).mp h with ⟨entries, hentries, hc⟩
        rw [hentries] at hmerge
        cases hmerged : merge .default base' editions with
        | error defect =>
            rw [hmerged] at hmerge
            cases hmerge
        | ok entries' =>
            rw [hmerged] at hmerge
            cases hmerge
            exact (Fallible.bind_eq_ok_iff _ _ _).mpr ⟨entries, hmerged, hc⟩
      rcases print_tells_compiled .default base [] c h with ⟨⟨places, hplaces, -, hperm⟩, htells⟩
      rw [hplaces] at hplace
      cases hplace
      exact ⟨base, base', editions, c, c, by decide +kernel, h, h', List.cons_ne_nil _ _, rfl,
        List.perm_singleton.mp hperm, (htells .default base' editions c h' rfl).2.2.1⟩

end Phrasebook
