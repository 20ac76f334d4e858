import Phrasebook.Proofs.Group
import Phrasebook.Proofs.Placement

/-!
# Catalogues Hold Exactly Their Entries

Arranging entries by package and inner group is a fold: the entries come one
after another, and each changes one path of one tree. What the whole fold leaves
behind is stated as an invariant that relates the catalogue to the entries that
have been added so far. `Arranges` says that the entries are found at the places
of their keys and nothing else is found anywhere, that their number is the size,
and that every package is a sound tree with at least one message.

The step from one catalogue to the next needs no fact about keys. An entry is
refused if its place is taken, so an addition can never hide an entry, and two
keys with one placement would be refused and not merged. That no two keys have
one placement is a fact about keys alone, and it is used only at the end, to say
that each message stems from one key.

## Main definitions

* `Catalogue.Arranges`: A catalogue holds exactly some entries.
* `Catalogue.Located.Spelled`: The names of a group are segments.

## Theorems

* `Catalogue.add_eq_ok_iff`: When an entry can be added to a catalogue.
* `Catalogue.entryAt?_add`: One entry is new, and all others are what they were.
* `Catalogue.arranges_add`, `Catalogue.arranges_foldlM`: What one addition and
  what a run of them preserves.
* `Catalogue.arranges_ofEntries`: A catalogue holds exactly its entries.
* `Catalogue.mem_located_iff`: Exactly the groups that places lead to are listed.
* `Catalogue.entryAt?_of_mem_located`, `Catalogue.entryAt?_eq_some_iff`: A listed
  group holds what look-up finds.
* `Catalogue.nodup_located`: No place is listed twice.
* `Catalogue.spelled_of_mem_located`: The names of a listed group are segments.
* `Catalogue.ofEntries_lossless`: Arranging entries loses, doubles and alters
  nothing.
-/

namespace Phrasebook

namespace Catalogue

/-- A catalogue holds exactly some entries by key: each at the place of its key,
    and nothing anywhere else. -/
structure Arranges (suffix? : Option String) (entries : List (String × Entry)) (c : Catalogue) :
    Prop where
  placed : ∀ key entry, (key, entry) ∈ entries →
    ∃ place, Placement.ofKey suffix? key = .ok place ∧ c.entryAt? place = some entry
  keyed : ∀ place entry, c.entryAt? place = some entry →
    ∃ key, (key, entry) ∈ entries ∧ Placement.ofKey suffix? key = .ok place
  size : c.size = entries.length
  sound : ∀ path g, c.packages.get? path = some g → g.Sound ∧ 0 < g.size

/-- An entry is added to the package of its placement, which is made if it is
    missing. -/
theorem add_eq_ok_iff (suffix? : Option String) (c c' : Catalogue) (key : String) (entry : Entry) :
    c.add suffix? key entry = .ok c' ↔
      ∃ place changed, Placement.ofKey suffix? key = .ok place ∧
        ((c.packages.get? place.package).getD .empty).add place.package place.name entry []
          place.groups = .ok changed ∧
        c' = ⟨c.packages.insert place.package changed⟩ := by
  rw [add, Fallible.bind_eq_ok_iff]
  constructor
  · rintro ⟨place, hplace, h⟩
    rcases (Fallible.bind_eq_ok_iff _ _ _).mp h with ⟨changed, hchanged, h⟩
    cases h
    exact ⟨place, changed, hplace, hchanged, rfl⟩
  · rintro ⟨place, changed, hplace, hchanged, rfl⟩
    exact ⟨place, hplace, (Fallible.bind_eq_ok_iff _ _ _).mpr ⟨changed, hchanged, rfl⟩⟩

/-- Look-up by placement goes to the package, and there by path and name. -/
theorem entryAt?_eq (c : Catalogue) (place : Placement) :
    c.entryAt? place =
      (c.packages.get? place.package).bind (fun g => g.entryAt? place.groups place.name) := rfl

/-- Look-up in a changed package: the new entry is at its place, and elsewhere is
    what was there before. -/
theorem entryAt?_add (c : Catalogue) (place : Placement) (entry : Entry) (changed : Group)
    (h : ((c.packages.get? place.package).getD .empty).add place.package place.name entry []
      place.groups = .ok changed) (place' : Placement) :
    entryAt? ⟨c.packages.insert place.package changed⟩ place' =
      if place' = place then some entry else c.entryAt? place' := by
  rw [entryAt?_eq, entryAt?_eq, Dict.get?_insert]
  by_cases hpackage : place'.package = place.package
  · rw [if_pos hpackage, Option.bind_some, Group.entryAt?_add _ _ _ _ _ _ _ h]
    by_cases hplace : place' = place
    · rw [if_pos hplace, if_pos (hplace ▸ ⟨rfl, rfl⟩)]
    -- A place is its package, groups and name, so these differ in the groups or the name.
    · have hne : ¬(place'.groups = place.groups ∧ place'.name = place.name) := by
        rintro ⟨hgroups, hname⟩
        apply hplace
        cases place
        cases place'
        simp only [Placement.mk.injEq]
        exact ⟨hpackage, hgroups, hname⟩
      rw [if_neg hplace, if_neg hne, hpackage]
      -- The package may be new, and a group without members shows nothing.
      cases c.packages.get? place.package with
      | none => exact Group.entryAt?_empty place'.groups place'.name
      | some g => rfl
  · rw [if_neg hpackage, if_neg (fun hplace => hpackage (congrArg Placement.package hplace))]

/-- Nothing was at the place where an entry is added to a catalogue. -/
theorem entryAt?_of_add (c : Catalogue) (place : Placement) (entry : Entry) (changed : Group)
    (h : ((c.packages.get? place.package).getD .empty).add place.package place.name entry []
      place.groups = .ok changed) : c.entryAt? place = none := by
  have hnone := Group.entryAt?_of_add _ _ _ _ _ _ _ h
  rw [entryAt?_eq]
  cases hpackage : c.packages.get? place.package with
  | none => rfl
  | some g =>
      rw [hpackage] at hnone
      exact hnone

/-- The catalogue without packages holds no entries. -/
theorem arranges_empty (suffix? : Option String) : Arranges suffix? [] empty := by
  refine ⟨?_, ?_, rfl, ?_⟩
  · intro key entry hmem
    exact absurd hmem List.not_mem_nil
  · intro place entry hentry
    cases hentry
  · intro path g hg
    cases hg

/-- The size of a catalogue is the sum over its packages. -/
theorem size_eq (c : Catalogue) :
    c.size = (c.packages.pairs.map (fun pair => pair.2.size)).sum :=
  Group.sizeOfGroups_eq c.packages.pairs

/-- If a package is changed, the size changes by what the package changes by. -/
theorem size_insert (c : Catalogue) (package : String) (changed : Group) :
    size ⟨c.packages.insert package changed⟩ +
      ((c.packages.get? package).getD .empty).size = c.size + changed.size := by
  have hsum := Dict.sum_insert Group.size c.packages package changed
  rw [Group.size_getD] at hsum
  rw [size_eq, size_eq]
  exact hsum

/-- An addition extends the entries that a catalogue holds by one. -/
theorem arranges_add (suffix? : Option String) (entries : List (String × Entry))
    (c c' : Catalogue) (key : String) (entry : Entry) (harranges : Arranges suffix? entries c)
    (h : c.add suffix? key entry = .ok c') :
    Arranges suffix? (entries ++ [(key, entry)]) c' := by
  rcases (add_eq_ok_iff suffix? c c' key entry).mp h with ⟨place, changed, hplace, hchanged, rfl⟩
  have hentryAt := entryAt?_add c place entry changed hchanged
  have hfree := entryAt?_of_add c place entry changed hchanged
  -- The package before the addition, which may be the empty one.
  have hbefore : ((c.packages.get? place.package).getD .empty).Sound := by
    cases hpackage : c.packages.get? place.package with
    | none => exact Group.sound_empty
    | some g => exact (harranges.sound _ g hpackage).1
  have hsound := Group.sound_add _ _ _ _ _ _ _ hbefore hchanged
  have hsize := Group.size_add _ _ _ _ _ _ _ hbefore hchanged
  refine ⟨?_, ?_, ?_, ?_⟩
  · intro key' entry' hmem
    rcases List.mem_append.mp hmem with hmem | hmem
    · rcases harranges.placed key' entry' hmem with ⟨place', hplace', hentry'⟩
      refine ⟨place', hplace', ?_⟩
      have hne : ¬place' = place := by
        intro heq
        rw [heq, hfree] at hentry'
        cases hentry'
      rw [hentryAt, if_neg hne]
      exact hentry'
    · cases List.mem_singleton.mp hmem
      exact ⟨place, hplace, by rw [hentryAt, if_pos rfl]⟩
  · intro place' entry' hentry'
    rw [hentryAt] at hentry'
    by_cases heq : place' = place
    · rw [if_pos heq] at hentry'
      cases hentry'
      exact ⟨key, List.mem_append_right _ (List.mem_singleton_self _), heq ▸ hplace⟩
    · rw [if_neg heq] at hentry'
      rcases harranges.keyed place' entry' hentry' with ⟨key', hmem, hkey'⟩
      exact ⟨key', List.mem_append_left _ hmem, hkey'⟩
  · have hsum := size_insert c place.package changed
    have hlength := harranges.size
    rw [List.length_append, List.length_singleton]
    omega
  · intro path g hg
    rw [Dict.get?_insert] at hg
    by_cases hpath : path = place.package
    · rw [if_pos hpath] at hg
      cases hg
      exact ⟨hsound, by omega⟩
    · rw [if_neg hpath] at hg
      exact harranges.sound path g hg

/-- A run of additions extends the entries that a catalogue holds by all that
    were added. -/
theorem arranges_foldlM (suffix? : Option String) (entries added : List (String × Entry))
    (c c' : Catalogue) (harranges : Arranges suffix? entries c)
    (h : added.foldlM (fun c (key, entry) => c.add suffix? key entry) c = .ok c') :
    Arranges suffix? (entries ++ added) c' := by
  induction added generalizing entries c with
  | nil =>
      cases h
      rw [List.append_nil]
      exact harranges
  | cons head rest ih =>
      rcases head with ⟨key, entry⟩
      rcases (Fallible.foldlM_cons_eq_ok_iff _ _ _ _ _).mp h with ⟨next, hnext, hrest⟩
      -- The entries added so far grow on the right, one with each step.
      have hstep := arranges_add suffix? entries c next key entry harranges hnext
      rw [List.append_cons]
      exact ih (entries ++ [(key, entry)]) next hstep hrest

/-- A catalogue holds exactly the entries that it was made of. -/
theorem arranges_ofEntries (config : Config) (entries : Dict Entry) (c : Catalogue)
    (h : ofEntries config entries = .ok c) : Arranges config.groupSuffix? entries.pairs c :=
  arranges_foldlM config.groupSuffix? [] entries.pairs empty c
    (arranges_empty config.groupSuffix?) h

/-- The package of a group, the path to it, and the names in it are segments. -/
structure Located.Spelled (l : Located) : Prop where
  package : ∀ s ∈ Key.path l.package, Key.IsSegment s
  path : ∀ s ∈ l.path, Key.IsSegment s
  messages : ∀ name ∈ l.group.messages.keys, Key.IsSegment name
  groups : ∀ pair ∈ l.group.groups, Key.IsSegment pair.1

/-- Exactly the groups that lie below a path of a package are listed. -/
theorem mem_located_iff (suffix? : Option String) (entries : List (String × Entry))
    (c : Catalogue) (h : Arranges suffix? entries c) (l : Located) :
    l ∈ c.located ↔ ∃ g, c.packages.get? l.package = some g ∧ g.below? l.path = some l.group := by
  rw [located, List.mem_flatMap]
  constructor
  · rintro ⟨⟨package, g⟩, hpackage, hl⟩
    rcases List.mem_map.mp hl with ⟨⟨path, group⟩, hmem, rfl⟩
    have hg := (Dict.mem_pairs_iff c.packages package g).mp hpackage
    rcases (Group.mem_located_iff g (h.sound _ g hg).1 [] path group).mp hmem with
      ⟨rest, hpath, hbelow⟩
    rw [List.nil_append] at hpath
    exact ⟨g, hg, hpath ▸ hbelow⟩
  · rintro ⟨g, hg, hbelow⟩
    refine ⟨(l.package, g), (Dict.mem_pairs_iff c.packages _ g).mpr hg, ?_⟩
    refine List.mem_map.mpr ⟨(l.path, l.group), ?_, rfl⟩
    exact (Group.mem_located_iff g (h.sound _ g hg).1 [] l.path l.group).mpr
      ⟨l.path, (List.nil_append _).symm, hbelow⟩

/-- A listed group is sound and has messages. -/
theorem sound_of_mem_located (suffix? : Option String) (entries : List (String × Entry))
    (c : Catalogue) (h : Arranges suffix? entries c) (l : Located) (hl : l ∈ c.located) :
    l.group.Sound ∧ 0 < l.group.size := by
  rcases (mem_located_iff suffix? entries c h l).mp hl with ⟨g, hg, hbelow⟩
  rcases h.sound _ g hg with ⟨hsound, hsize⟩
  rcases Group.sound_of_below? g hsound l.path l.group hbelow with ⟨hinside, hinhabited⟩
  refine ⟨hinside, ?_⟩
  -- The group of the package itself is inhabited by the invariant, the ones inside it by
  -- soundness.
  by_cases hpath : l.path = []
  · rw [hpath] at hbelow
    cases hbelow
    exact hsize
  · exact hinhabited hpath

/-- A listed group holds under each name what look-up finds there. -/
theorem entryAt?_of_mem_located (suffix? : Option String) (entries : List (String × Entry))
    (c : Catalogue) (h : Arranges suffix? entries c) (l : Located) (hl : l ∈ c.located)
    (name : String) : c.entryAt? ⟨l.package, l.path, name⟩ = l.group.messages.get? name := by
  rcases (mem_located_iff suffix? entries c h l).mp hl with ⟨g, hg, hbelow⟩
  rw [entryAt?_eq, hg, Option.bind_some, Group.entryAt?, hbelow, Option.bind_some]

/-- An entry is found where a listed group holds it. -/
theorem entryAt?_eq_some_iff (suffix? : Option String) (entries : List (String × Entry))
    (c : Catalogue) (h : Arranges suffix? entries c) (place : Placement) (entry : Entry) :
    c.entryAt? place = some entry ↔ ∃ l ∈ c.located, l.package = place.package ∧
      l.path = place.groups ∧ l.group.messages.get? place.name = some entry := by
  constructor
  · intro hentry
    rw [entryAt?_eq] at hentry
    rcases Option.bind_eq_some_iff.mp hentry with ⟨g, hg, hentry⟩
    rcases Option.bind_eq_some_iff.mp hentry with ⟨group, hbelow, hname⟩
    exact ⟨⟨place.package, place.groups, group⟩,
      (mem_located_iff suffix? entries c h _).mpr ⟨g, hg, hbelow⟩, rfl, rfl, hname⟩
  · rintro ⟨l, hl, hpackage, hpath, hname⟩
    have hlisted := entryAt?_of_mem_located suffix? entries c h l hl place.name
    rw [hpackage, hpath] at hlisted
    exact hlisted.trans hname

/-- No place is listed twice. -/
theorem nodup_located (suffix? : Option String) (entries : List (String × Entry))
    (c : Catalogue) (h : Arranges suffix? entries c) :
    (c.located.map (fun l => (l.package, l.path))).Nodup := by
  rw [located, List.map_flatMap, List.nodup_flatMap]
  constructor
  · rintro ⟨package, g⟩ hpackage
    have hsound := (h.sound package g ((Dict.mem_pairs_iff c.packages package g).mp hpackage)).1
    have hpaths := (Group.nodup_located g hsound []).map (f := (package, ·))
      (fun _ _ heq => (Prod.mk.inj heq).2)
    rw [List.map_map] at hpaths ⊢
    exact hpaths
  · refine (List.pairwise_map.mp c.packages.nodup_keys).imp ?_
    intro left right hne place hleft hright
    -- The places of a package have its name in front.
    have hpackage : ∀ pair : String × Group, place ∈ ((pair.2.located []).map
        (fun inside => Located.mk pair.1 inside.1 inside.2)).map
          (fun l => (l.package, l.path)) → place.1 = pair.1 := by
      intro pair hplace
      rcases List.mem_map.mp hplace with ⟨l, hl, rfl⟩
      rcases List.mem_map.mp hl with ⟨inside, -, rfl⟩
      rfl
    exact hne ((hpackage left hleft).symm.trans (hpackage right hright))

/-- An inner group of a listed group is listed. -/
theorem mem_located_of_mem_groups (suffix? : Option String) (entries : List (String × Entry))
    (c : Catalogue) (h : Arranges suffix? entries c) (l : Located) (hl : l ∈ c.located)
    (inner : String) (child : Group) (hchild : (inner, child) ∈ l.group.groups) :
    ⟨l.package, l.path ++ [inner], child⟩ ∈ c.located := by
  rcases (mem_located_iff suffix? entries c h l).mp hl with ⟨g, hg, hbelow⟩
  refine (mem_located_iff suffix? entries c h _).mpr ⟨g, hg, ?_⟩
  have hsound := (sound_of_mem_located suffix? entries c h l hl).1
  rw [Group.below?_append, hbelow, Option.bind_some]
  exact Option.bind_eq_some_iff.mpr
    ⟨child, (Group.mem_groups_iff l.group hsound inner child).mp hchild, rfl⟩

/-- Below every listed group a message is found. -/
theorem exists_entryAt?_of_mem_located (suffix? : Option String) (entries : List (String × Entry))
    (c : Catalogue) (h : Arranges suffix? entries c) (l : Located) (hl : l ∈ c.located) :
    ∃ rest name entry, c.entryAt? ⟨l.package, l.path ++ rest, name⟩ = some entry := by
  rcases sound_of_mem_located suffix? entries c h l hl with ⟨hsound, hsize⟩
  -- Some message stands in the group or below it.
  rcases Group.exists_entryAt?_of_size_pos l.group hsound hsize with ⟨rest, name, entry, hentry⟩
  rcases (mem_located_iff suffix? entries c h l).mp hl with ⟨g, hg, hbelow⟩
  refine ⟨rest, name, entry, ?_⟩
  rw [entryAt?_eq, hg, Option.bind_some, Group.entryAt?, Group.below?_append, hbelow]
  exact hentry

/-- Listed groups are named by segments, and so is what is in them, if all keys are
    made of segments. -/
theorem spelled_of_mem_located (suffix? : Option String) (entries : List (String × Entry))
    (c : Catalogue) (h : Arranges suffix? entries c)
    (hkeys : ∀ pair ∈ entries, Key.WellFormed pair.1) (l : Located) (hl : l ∈ c.located) :
    l.Spelled := by
  -- A group is on the way to some message, whose key spells out the names.
  have hplace : ∀ l ∈ c.located,
      (∀ s ∈ Key.path l.package, Key.IsSegment s) ∧ ∀ s ∈ l.path, Key.IsSegment s := by
    intro l hl
    rcases exists_entryAt?_of_mem_located suffix? entries c h l hl with
      ⟨rest, name, entry, hentry⟩
    rcases h.keyed _ entry hentry with ⟨key, hmem, hplace⟩
    have hspells := Placement.spells_ofKey suffix? key _ (hkeys _ hmem) hplace
    exact ⟨hspells.package, fun s hs => hspells.groups s (List.mem_append_left rest hs)⟩
  refine ⟨(hplace l hl).1, (hplace l hl).2, ?_, ?_⟩
  · intro name hname
    rcases (Dict.mem_keys_iff _ name).mp hname with ⟨entry, hentry⟩
    rw [← entryAt?_of_mem_located suffix? entries c h l hl] at hentry
    rcases h.keyed _ entry hentry with ⟨key, hmem, hplace⟩
    exact (Placement.spells_ofKey suffix? key _ (hkeys _ hmem) hplace).name
  · rintro ⟨inner, child⟩ hchild
    have hin := mem_located_of_mem_groups suffix? entries c h l hl inner child hchild
    have hmem : inner ∈ l.path ++ [inner] :=
      List.mem_append_right l.path (List.mem_singleton_self inner)
    exact (hplace _ hin).2 inner hmem

/-- Arranging loses, doubles and alters nothing. The entry of every key is found
    at the placement of the key, and every message of any listed group is the
    entry of one key, the only one with its placement. The size is the number of
    entries, and in each group names are unambiguous and lead to messages. -/
theorem ofEntries_lossless (config : Config) (entries : Dict Entry) (c : Catalogue)
    (hkeys : ∀ key ∈ entries.keys, Key.WellFormed key)
    (h : ofEntries config entries = .ok c) :
    (∀ key entry, entries.get? key = some entry →
      ∃ place, Placement.ofKey config.groupSuffix? key = .ok place ∧
        c.entryAt? place = some entry) ∧
    (∀ l ∈ c.located, ∀ name entry, l.group.messages.get? name = some entry →
      ∃ key, entries.get? key = some entry ∧
        Placement.ofKey config.groupSuffix? key = .ok ⟨l.package, l.path, name⟩ ∧
        ∀ key' ∈ entries.keys,
          Placement.ofKey config.groupSuffix? key' = .ok ⟨l.package, l.path, name⟩ → key' = key) ∧
    c.size = entries.size ∧
    (∀ l ∈ c.located, List.Disjoint l.group.messages.keys (l.group.groups.map Prod.fst)) ∧
    (∀ l ∈ c.located, 0 < l.group.size) := by
  have harranges := arranges_ofEntries config entries c h
  refine ⟨?_, ?_, harranges.size, ?_, ?_⟩
  · intro key entry hentry
    exact harranges.placed key entry ((Dict.mem_pairs_iff entries key entry).mpr hentry)
  · intro l hl name entry hentry
    rw [← entryAt?_of_mem_located _ _ c harranges l hl] at hentry
    rcases harranges.keyed _ entry hentry with ⟨key, hmem, hplace⟩
    have hget := (Dict.mem_pairs_iff entries key entry).mp hmem
    refine ⟨key, hget, hplace, ?_⟩
    intro key' hkey' hplace'
    -- Keys with one placement are one key, since a placement makes up its key.
    have hspells' := Placement.spells_ofKey _ key' _ (hkeys key' hkey') hplace'
    have hspells := Placement.spells_ofKey _ key _
      (hkeys key ((Dict.mem_keys_iff entries key).mpr ⟨entry, hget⟩)) hplace
    exact Placement.eq_of_spells _ _ key' key hspells' hspells
  · intro l hl name hmessage hgroup
    rcases (Dict.mem_keys_iff _ name).mp hmessage with ⟨entry, hentry⟩
    exact Group.not_mem_names l.group (sound_of_mem_located _ _ c harranges l hl).1 name entry
      hentry hgroup
  · intro l hl
    exact (sound_of_mem_located _ _ c harranges l hl).2

/-- Three entries, two of them in inner groups, of which one is inside the
    other. -/
theorem ofEntries_lossless_menu : ∃ entries c,
    entries.keys = ["app.menu_nested.item", "app.menu_nested.sub_nested.item", "app.title"] ∧
    ofEntries .default entries = .ok c ∧ c.size = entries.size ∧
    (∀ l ∈ c.located, 0 < l.group.size) := by
  let entry : Entry := ⟨.empty, .empty, "de", []⟩
  let entries : Dict Entry := .ofList [("app.title", entry), ("app.menu_nested.item", entry),
    ("app.menu_nested.sub_nested.item", entry)]
  have hkeys : ∀ key ∈ entries.keys, Key.WellFormed key := by decide +kernel
  have hok : (ofEntries .default entries).isOk = true := by decide +kernel
  -- That the entries can be arranged is decided; what the result is like, the theorem says.
  cases h : ofEntries .default entries with
  | error defect =>
      rw [h] at hok
      cases hok
  | ok c =>
      have hlossless := ofEntries_lossless .default entries c hkeys h
      exact ⟨entries, c, by decide +kernel, h, hlossless.2.2.1, hlossless.2.2.2.2⟩

end Catalogue

end Phrasebook
