import Mathlib.Data.List.DropRight
import Phrasebook.Proofs.Catalogue

/-!
# When Entries Cannot Be Arranged

Two things keep entries from being arranged. A segment that marks an inner group
may be nothing but the suffix, so that no name is left for the group. And one key
may want a message where another one wants an inner group, since a name in a group
means one thing only.

Such a clash shows up in either order: the message may be there when a path is
walked through its place, or the groups may be there when the message comes. What
is found in each case is known from the entries that have been arranged so far.
A message in the way is one of them, and a group in the way has a message inside,
which is one of them too (`Catalogue.blocked_of_add`). The other way round, a
catalogue in which two keys clash would have a group with one name for a message
and for a group inside, and all its groups are sound.

## Main definitions

* `Placement.isMarked`, `Placement.markedSegments`: The segments of a key that mark inner groups.
* `Placement.Bare`: One of them is the suffix alone.
* `Placement.Clashes`: A message is placed where another has an inner group.

## Theorems

* `Placement.ofKey_eq_error_iff`, `Placement.exists_ofKey_iff`: Which keys have no
  placement.
* `Placement.eq_of_ofKey`: No two keys have one placement.
* `Group.taken_of_add`: What is in the way where an entry cannot be added.
* `Catalogue.add_eq_error_iff`, `Catalogue.blocked_of_add`: Why an entry cannot be
  added, and which keys are in the way of its key.
* `Catalogue.not_clashes_of_arranges`: Keys that are arranged do not clash.
* `Catalogue.ofEntries_outcome`: When entries can be arranged, and what is wrong
  with them otherwise.
-/

namespace Phrasebook

namespace Placement

/-- Whether a segment ends with the suffix. -/
def isMarked (suffix segment : String) : Bool := suffix.toList.isSuffixOf segment.toList

/-- The segments that mark the inner groups of a key: of those in front of its
    name, the last ones that end with the suffix. -/
def markedSegments (suffix key : String) : List String :=
  (Key.segments key).dropLast.rtakeWhile (isMarked suffix)

/-- A segment that marks an inner group is the suffix alone. -/
def Bare (suffix? : Option String) (key : String) : Prop :=
  ∃ suffix, suffix? = some suffix ∧ suffix ∈ markedSegments suffix key

/-- A message is placed where another one has an inner group. -/
structure Clashes (p q : Placement) : Prop where
  package : p.package = q.package
  groups : p.groups ++ [p.name] <+: q.groups

theorem groupName?_eq_none_iff (suffix segment : String) :
    groupName? suffix segment = none ↔ isMarked suffix segment = false := by
  rw [groupName?, Option.map_eq_none_iff, Text.dropSuffix?, isMarked, ← Bool.not_eq_true]
  simp

theorem isMarked_of_groupName? (suffix segment name : String)
    (h : groupName? suffix segment = some name) : isMarked suffix segment = true := by
  rw [← Bool.not_eq_false, ← groupName?_eq_none_iff, h]
  simp

/-- The walk from the back fails at a segment that is the suffix alone, if it gets
    there. -/
theorem takeGroups_eq_error_iff (key suffix : String) (segments groups : List String)
    (d : Defect) :
    takeGroups key suffix groups segments = .error d ↔
      suffix ∈ segments.takeWhile (isMarked suffix) ∧ d = .malformed key (.bareSuffix suffix) := by
  induction segments generalizing groups with
  | nil => simp [takeGroups]
  | cons segment front ih =>
      unfold takeGroups
      cases hname : groupName? suffix segment with
      | none =>
          have hother := (groupName?_eq_none_iff suffix segment).mp hname
          simp [hother]
      | some name =>
          have hmarked := isMarked_of_groupName? suffix segment name hname
          have hsegment := append_of_groupName? suffix segment name hname
          -- A group without a name is where the walk fails; behind any other it goes on.
          by_cases hempty : name = ""
          · have hbare : suffix = segment := by rw [hsegment, hempty, String.empty_append]
            subst hbare
            rw [List.takeWhile_cons_of_pos hmarked, and_iff_right List.mem_cons_self, eq_comm]
            simp [hempty]
          · have hmore : suffix ≠ segment := by
              intro heq
              exact hempty (String.append_eq_right_iff.mp (heq.trans hsegment).symm)
            simp [hempty, hmarked, hmore, ih]

/-- A key has no placement exactly if one of its groups would have no name. -/
theorem ofKey_eq_error_iff (suffix? : Option String) (key : String) (hkey : Key.WellFormed key)
    (d : Defect) :
    ofKey suffix? key = .error d ↔ ∃ suffix, suffix? = some suffix ∧
      suffix ∈ markedSegments suffix key ∧ d = .malformed key (.bareSuffix suffix) := by
  rw [ofKey, splitName_eq key hkey]
  cases suffix? with
  | none => simp [pure, Except.pure]
  | some suffix =>
      simp only [Fallible.bind_eq_error_iff, takeGroups_eq_error_iff, markedSegments,
        List.rtakeWhile, List.mem_reverse, Option.some.injEq]
      simp [pure, Except.pure]

/-- A key has a placement unless one of its groups would have no name. -/
theorem exists_ofKey_iff (suffix? : Option String) (key : String) (hkey : Key.WellFormed key) :
    (∃ p, ofKey suffix? key = .ok p) ↔ ¬ Bare suffix? key := by
  rw [← Fallible.ne_error_iff]
  constructor
  · rintro hall ⟨suffix, hsuffix, hbare⟩
    exact hall _ ((ofKey_eq_error_iff suffix? key hkey _).mpr ⟨suffix, hsuffix, hbare, rfl⟩)
  · intro hbare d hd
    rcases (ofKey_eq_error_iff suffix? key hkey d).mp hd with ⟨suffix, hsuffix, hmarked, -⟩
    exact hbare ⟨suffix, hsuffix, hmarked⟩

/-- No two keys have one placement. -/
theorem eq_of_ofKey (suffix? : Option String) (key key' : String) (hkey : Key.WellFormed key)
    (hkey' : Key.WellFormed key') (p : Placement) (h : ofKey suffix? key = .ok p)
    (h' : ofKey suffix? key' = .ok p) : key = key' :=
  eq_of_spells _ p key key' (spells_ofKey suffix? key p hkey h)
    (spells_ofKey suffix? key' p hkey' h')

end Placement

namespace Group

/-- In a group that may be missing is found what is found below its name. -/
theorem entryAt?_getD (g : Group) (inner : String) (path : List String) (name : String) :
    ((g.group? inner).getD .empty).entryAt? path name = g.entryAt? (inner :: path) name := by
  rw [entryAt?_cons]
  cases g.group? inner with
  | none => exact entryAt?_empty path name
  | some inside => rfl

/-- From a group that may be missing a path leads to what it leads to below its
    name. -/
theorem below?_getD (g? : Option Group) (path : List String) (hpath : path ≠ []) :
    (g?.getD .empty).below? path = g?.bind (fun g => g.below? path) := by
  cases g? with
  | some g => rfl
  | none =>
      cases path with
      | nil => exact absurd rfl hpath
      | cons inner path => rfl

/-- If an entry cannot be added, the name that is taken is one on its path, and a
    message has it, or the last one, and a message or a group has it. -/
theorem taken_of_add (package name : String) (entry : Entry) (above path : List String)
    (g : Group) (d : Defect) (h : g.add package name entry above path = .error d) :
    ∃ front last, d = taken package (above ++ front) last ∧
      ((front ++ [last] <+: path ∧ ∃ other, g.entryAt? front last = some other) ∨
        (front = path ∧ last = name ∧ ((∃ other, g.entryAt? path name = some other) ∨
          ∃ inside, g.below? (path ++ [name]) = some inside))) := by
  induction path generalizing above g with
  | nil =>
      rw [add] at h
      -- The path is at its end: the name itself is taken, by a message or by a group.
      split at h
      · next htaken =>
          cases h
          refine ⟨[], name, by rw [List.append_nil], Or.inr ⟨rfl, rfl, ?_⟩⟩
          rcases Bool.or_eq_true_iff.mp htaken with hmessage | hgroup
          · exact Or.inl (Option.isSome_iff_exists.mp hmessage)
          · rcases Option.isSome_iff_exists.mp hgroup with ⟨inside, hinside⟩
            exact Or.inr ⟨inside, Option.bind_eq_some_iff.mpr ⟨inside, hinside, rfl⟩⟩
      · cases h
  | cons inner path ih =>
      rw [add] at h
      split at h
      · next hmessage =>
          cases h
          exact ⟨[], inner, by rw [List.append_nil],
            Or.inl ⟨⟨path, rfl⟩, Option.isSome_iff_exists.mp hmessage⟩⟩
      · rcases (Fallible.bind_eq_error_iff _ _ _).mp h with h | ⟨changed, -, h⟩
        · rcases ih _ _ h with ⟨front, last, hd, hcase⟩
          -- What is in the way inside the group is in the way of the whole path.
          simp only [entryAt?_getD] at hcase
          refine ⟨inner :: front, last, by rw [hd, List.append_assoc]; rfl, ?_⟩
          rcases hcase with ⟨hway, hmessage⟩ | ⟨rfl, rfl, hlast⟩
          · exact Or.inl ⟨List.cons_prefix_cons.mpr ⟨rfl, hway⟩, hmessage⟩
          · rw [below?_getD _ _ (List.append_ne_nil_of_right_ne_nil front (List.cons_ne_nil _ _))]
              at hlast
            exact Or.inr ⟨rfl, rfl, hlast⟩
        · cases h

end Group

namespace Catalogue

variable {suffix? : Option String} {entries : List (String × Entry)} {c : Catalogue}

/-- An entry cannot be added if its key has no placement, or if its package does not
    take it there. -/
theorem add_eq_error_iff (suffix? : Option String) (c : Catalogue) (key : String) (entry : Entry)
    (d : Defect) :
    c.add suffix? key entry = .error d ↔ Placement.ofKey suffix? key = .error d ∨
      ∃ place, Placement.ofKey suffix? key = .ok place ∧
        ((c.packages.get? place.package).getD .empty).add place.package place.name entry []
          place.groups = .error d := by
  rw [add, Fallible.bind_eq_error_iff]
  refine or_congr_right (exists_congr (fun place => and_congr_right (fun _ => ?_)))
  rw [Fallible.bind_eq_error_iff]
  simp [pure, Except.pure]

/-- In a package that may be missing is found what is found at a placement. -/
theorem entryAt?_getD (c : Catalogue) (package : String) (path : List String) (name : String) :
    ((c.packages.get? package).getD .empty).entryAt? path name =
      c.entryAt? ⟨package, path, name⟩ := by
  rw [entryAt?_eq]
  cases c.packages.get? package with
  | none => exact Group.entryAt?_empty path name
  | some g => rfl

/-- Below every group inside a package a message is found. -/
theorem exists_entryAt?_of_below? (h : c.Arranges suffix? entries) (package : String)
    (path : List String) (hpath : path ≠ []) (inside : Group)
    (hinside : ((c.packages.get? package).getD .empty).below? path = some inside) :
    ∃ rest name entry, c.entryAt? ⟨package, path ++ rest, name⟩ = some entry := by
  rw [Group.below?_getD _ path hpath] at hinside
  rcases Option.bind_eq_some_iff.mp hinside with ⟨g, hg, hbelow⟩
  exact exists_entryAt?_of_mem_located suffix? entries c h ⟨package, path, inside⟩
    ((mem_located_iff suffix? entries c h _).mpr ⟨g, hg, hbelow⟩)

/-- If an entry cannot be added though its key has a placement, a key that was added
    before is in the way: it has the same placement, or the two clash. -/
theorem blocked_of_add (h : c.Arranges suffix? entries) (key : String) (entry : Entry)
    (place : Placement) (hplace : Placement.ofKey suffix? key = .ok place) (d : Defect)
    (hadd : c.add suffix? key entry = .error d) :
    ∃ pair ∈ entries, ∃ other, Placement.ofKey suffix? pair.1 = .ok other ∧
      (other = place ∨
        (other.Clashes place ∧
          d = .nameTaken other.package (Key.join (other.groups ++ [other.name]))) ∨
        (place.Clashes other ∧
          d = .nameTaken place.package (Key.join (place.groups ++ [place.name])))) := by
  rcases (add_eq_error_iff suffix? c key entry d).mp hadd with hkey | ⟨place', hplace', hadd⟩
  · rw [hplace] at hkey
    cases hkey
  rw [hplace] at hplace'
  cases hplace'
  rcases Group.taken_of_add _ _ _ _ _ _ _ hadd with ⟨front, last, rfl, hcase⟩
  rw [List.nil_append]
  simp only [entryAt?_getD] at hcase
  rcases hcase with ⟨hway, other, hother⟩ | ⟨rfl, rfl, ⟨other, hother⟩ | ⟨inside, hinside⟩⟩
  · -- A message has the name of a group on the path.
    rcases h.keyed _ other hother with ⟨key', hmem, hkey'⟩
    exact ⟨_, hmem, _, hkey', Or.inr (Or.inl ⟨⟨rfl, hway⟩, rfl⟩)⟩
  · -- A message has the very same name.
    rcases h.keyed _ other hother with ⟨key', hmem, hkey'⟩
    exact ⟨_, hmem, _, hkey', Or.inl rfl⟩
  · -- A group has the name, and inside it is a message.
    rcases exists_entryAt?_of_below? h place.package _
      (List.append_ne_nil_of_right_ne_nil _ (List.cons_ne_nil _ _)) inside hinside with
      ⟨rest, name, other, hother⟩
    rcases h.keyed _ other hother with ⟨key', hmem, hkey'⟩
    exact ⟨_, hmem, _, hkey', Or.inr (Or.inr ⟨⟨rfl, rest, rfl⟩, rfl⟩)⟩

/-- Keys that are arranged do not clash: a group would have one name for a message
    and for a group inside. -/
theorem not_clashes_of_arranges (h : c.Arranges suffix? entries) (pair pair' : String × Entry)
    (hpair : pair ∈ entries) (hpair' : pair' ∈ entries) (place place' : Placement)
    (hplace : Placement.ofKey suffix? pair.1 = .ok place)
    (hplace' : Placement.ofKey suffix? pair'.1 = .ok place') : ¬ place.Clashes place' := by
  have hfound : ∀ pair ∈ entries, ∀ place, Placement.ofKey suffix? pair.1 = .ok place →
      ∃ l ∈ c.located, l.package = place.package ∧ l.path = place.groups ∧
        l.group.messages.get? place.name = some pair.2 := by
    intro pair hpair place hplace
    rcases h.placed pair.1 pair.2 hpair with ⟨place', hplace', hentry⟩
    rw [hplace] at hplace'
    cases hplace'
    exact (entryAt?_eq_some_iff suffix? entries c h place pair.2).mp hentry
  rintro ⟨hpackage, rest, hgroups⟩
  rcases hfound pair hpair place hplace with ⟨l, hl, hlpackage, hlpath, hmessage⟩
  rcases hfound pair' hpair' place' hplace' with ⟨l', hl', hlpackage', hlpath', -⟩
  rcases (mem_located_iff suffix? entries c h l).mp hl with ⟨g, hg, hbelow⟩
  rcases (mem_located_iff suffix? entries c h l').mp hl' with ⟨g', hg', hbelow'⟩
  -- Both groups are in one package, the second below the place of the message.
  rw [hlpackage', ← hpackage, ← hlpackage, hg] at hg'
  cases hg'
  rw [hlpath', ← hgroups, List.append_assoc, ← hlpath, Group.below?_append, hbelow,
    Option.bind_some] at hbelow'
  rcases Option.bind_eq_some_iff.mp hbelow' with ⟨child, hchild, -⟩
  have hsound := (sound_of_mem_located suffix? entries c h l hl).1
  have hmem := (Group.mem_groups_iff l.group hsound place.name child).mpr hchild
  exact Group.not_mem_names l.group hsound place.name pair.2 hmessage (List.mem_map_of_mem hmem)

/-- If entries cannot be arranged, a segment of a key is the suffix alone, or two keys
    clash. -/
theorem defect_of_ofEntries (config : Config) (entries : Dict Entry)
    (hkeys : ∀ key ∈ entries.keys, Key.WellFormed key) (d : Defect)
    (h : ofEntries config entries = .error d) :
    (∃ key ∈ entries.keys, ∃ suffix, config.groupSuffix? = some suffix ∧
      suffix ∈ Placement.markedSegments suffix key ∧
      d = .malformed key (.bareSuffix suffix)) ∨
    ∃ key ∈ entries.keys, ∃ key' ∈ entries.keys, ∃ place place',
      Placement.ofKey config.groupSuffix? key = .ok place ∧
      Placement.ofKey config.groupSuffix? key' = .ok place' ∧ place.Clashes place' ∧
      d = .nameTaken place.package (Key.join (place.groups ++ [place.name])) := by
  rcases (Fallible.foldlM_eq_error_iff _ _ _ _).mp h with
    ⟨front, ⟨key, entry⟩, back, c, hpairs, hfront, hadd⟩
  have harranges := arranges_foldlM config.groupSuffix? [] front empty c (arranges_empty _) hfront
  rw [List.nil_append] at harranges
  have hsplit : entries.keys = front.map Prod.fst ++ key :: back.map Prod.fst := by
    rw [Dict.keys, hpairs, List.map_append, List.map_cons]
  have hkey : key ∈ entries.keys := hsplit ▸ List.mem_append_right _ List.mem_cons_self
  have hbefore : ∀ pair ∈ front, pair.1 ∈ entries.keys :=
    fun pair hpair => hsplit ▸ List.mem_append_left _ (List.mem_map_of_mem hpair)
  cases hplace : Placement.ofKey config.groupSuffix? key with
  | error d' =>
      rcases (add_eq_error_iff _ c key entry d).mp hadd with hbare | ⟨place, hplace', -⟩
      · exact Or.inl ⟨key, hkey, (Placement.ofKey_eq_error_iff _ key (hkeys key hkey) d).mp hbare⟩
      · rw [hplace] at hplace'
        cases hplace'
  | ok place =>
      rcases blocked_of_add harranges key entry place hplace d hadd with
        ⟨pair, hpair, other, hother, rfl | ⟨hclash, hd⟩ | ⟨hclash, hd⟩⟩
      · -- A key with the same placement would be the same key again.
        have hsame := Placement.eq_of_ofKey _ pair.1 key (hkeys _ (hbefore pair hpair))
          (hkeys key hkey) other hother hplace
        have hnodup := entries.nodup_keys
        rw [hsplit] at hnodup
        exact absurd (hsame ▸ List.mem_cons_self)
          (List.disjoint_of_nodup_append hnodup (List.mem_map_of_mem hpair))
      · exact Or.inr ⟨pair.1, hbefore pair hpair, key, hkey, other, place, hother, hplace, hclash, hd⟩
      · exact Or.inr ⟨key, hkey, pair.1, hbefore pair hpair, place, other, hplace, hother, hclash, hd⟩

/-- Entries can be arranged exactly if no segment that marks an inner group is the
    suffix alone and no two keys clash. Otherwise the defect names a key with such a
    segment, or the place of the message of two keys that clash. Two keys never have
    one placement. -/
theorem ofEntries_outcome (config : Config) (entries : Dict Entry)
    (hkeys : ∀ key ∈ entries.keys, Key.WellFormed key) :
    ((∃ c, ofEntries config entries = .ok c) ↔
      (∀ key ∈ entries.keys, ¬ Placement.Bare config.groupSuffix? key) ∧
      ∀ key ∈ entries.keys, ∀ key' ∈ entries.keys, ∀ place place',
        Placement.ofKey config.groupSuffix? key = .ok place →
        Placement.ofKey config.groupSuffix? key' = .ok place' → ¬ place.Clashes place') ∧
    (∀ d, ofEntries config entries = .error d →
      (∃ key ∈ entries.keys, ∃ suffix, config.groupSuffix? = some suffix ∧
        suffix ∈ Placement.markedSegments suffix key ∧
        d = .malformed key (.bareSuffix suffix)) ∨
      ∃ key ∈ entries.keys, ∃ key' ∈ entries.keys, ∃ place place',
        Placement.ofKey config.groupSuffix? key = .ok place ∧
        Placement.ofKey config.groupSuffix? key' = .ok place' ∧ place.Clashes place' ∧
        d = .nameTaken place.package (Key.join (place.groups ++ [place.name]))) ∧
    ∀ key ∈ entries.keys, ∀ key' ∈ entries.keys, ∀ place,
      Placement.ofKey config.groupSuffix? key = .ok place →
      Placement.ofKey config.groupSuffix? key' = .ok place → key = key' := by
  refine ⟨?_, defect_of_ofEntries config entries hkeys, ?_⟩
  · constructor
    · rintro ⟨c, hc⟩
      have harranges := arranges_ofEntries config entries c hc
      -- The claim is about keys, and what is arranged are entries.
      have hpair : ∀ key ∈ entries.keys, ∃ entry, (key, entry) ∈ entries.pairs := by
        intro key hkey
        rcases (Dict.mem_keys_iff entries key).mp hkey with ⟨entry, hentry⟩
        exact ⟨entry, (Dict.mem_pairs_iff entries key entry).mpr hentry⟩
      constructor
      · intro key hkey
        rcases hpair key hkey with ⟨entry, hmem⟩
        rcases harranges.placed key entry hmem with ⟨place, hplace, -⟩
        exact (Placement.exists_ofKey_iff _ key (hkeys key hkey)).mp ⟨place, hplace⟩
      · intro key hkey key' hkey' place place' hplace hplace'
        rcases hpair key hkey with ⟨entry, hmem⟩
        rcases hpair key' hkey' with ⟨entry', hmem'⟩
        exact not_clashes_of_arranges harranges _ _ hmem hmem' place place' hplace hplace'
    · rintro ⟨hbare, hclash⟩
      -- Either of the two ways to fail is excluded by one of the conditions.
      refine (Fallible.ne_error_iff _).mp (fun d hd => ?_)
      rcases defect_of_ofEntries config entries hkeys d hd with
        ⟨key, hkey, suffix, hsuffix, hmarked, -⟩ |
        ⟨key, hkey, key', hkey', place, place', hplace, hplace', hboth, -⟩
      · exact hbare key hkey ⟨suffix, hsuffix, hmarked⟩
      · exact hclash key hkey key' hkey' place place' hplace hplace' hboth
  · intro key hkey key' hkey' place hplace hplace'
    exact Placement.eq_of_ofKey _ key key' (hkeys key hkey) (hkeys key' hkey') place hplace hplace'

/-- A message and an inner group are both called `menu`. -/
theorem ofEntries_outcome_menu : ∃ entries place place',
    entries.keys = ["app.menu", "app.menu_nested.item"] ∧
    Placement.ofKey (some "_nested") "app.menu" = .ok place ∧
    Placement.ofKey (some "_nested") "app.menu_nested.item" = .ok place' ∧
    place.Clashes place' ∧ ¬ ∃ c, ofEntries .default entries = .ok c := by
  let entry : Entry := ⟨.empty, .empty, "de", []⟩
  let entries : Dict Entry := .ofList [("app.menu", entry), ("app.menu_nested.item", entry)]
  have hkeys : ∀ key ∈ entries.keys, Key.WellFormed key := by decide +kernel
  have hplace : Placement.ofKey (some "_nested") "app.menu" = .ok ⟨"app", [], "menu"⟩ := by
    decide +kernel
  have hplace' : Placement.ofKey (some "_nested") "app.menu_nested.item" =
      .ok ⟨"app", ["menu"], "item"⟩ := by decide +kernel
  -- The message stands where the groups of the other key lead.
  have hclash : Placement.Clashes ⟨"app", [], "menu"⟩ ⟨"app", ["menu"], "item"⟩ :=
    ⟨rfl, List.prefix_rfl⟩
  refine ⟨entries, _, _, by decide +kernel, hplace, hplace', hclash, fun hok => ?_⟩
  exact ((ofEntries_outcome .default entries hkeys).1.mp hok).2 _ (by decide +kernel) _
    (by decide +kernel) _ _ hplace hplace' hclash

end Catalogue

end Phrasebook
