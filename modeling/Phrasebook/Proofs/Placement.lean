import Phrasebook.Catalogue.Placement
import Phrasebook.Proofs.Fallible
import Phrasebook.Proofs.Key

/-!
# Placements Keep Their Keys

A placement is a key in three parts, and nothing of the key is lost on the way:
the segments of the package, the inner groups with the suffix put back, and the
name make up the segments of the key again. So two keys never have the same
placement, which is why a catalogue can be asked for the entry of a key by
placement alone.

The walk over the segments goes from the back and stops at the first one without
the suffix. What it keeps is that the segments it has taken, read as groups with
the suffix, stand behind those it has not looked at yet. `takeGroups_eq_ok` says
so of the whole walk.

## Main definitions

* `Placement.Spells`: A placement makes up a key, given the suffix of groups.

## Theorems

* `Placement.append_of_groupName?`: A segment is its group with the suffix.
* `Placement.takeGroups_eq_ok`: What the walk over the segments takes away.
* `Placement.splitName_eq`, `Placement.splitName_join`: The last segment is the name.
* `Placement.spells_ofKey`: A placement makes up the key that it was found for.
* `Placement.eq_of_spells`: A placement makes up one key only.
-/

namespace Phrasebook

namespace Placement

/-- A placement makes up a key: the segments of its package, then its groups with
    the suffix behind each, then its name. All of them are segments. -/
structure Spells (suffix : String) (p : Placement) (key : String) : Prop where
  package : ∀ s ∈ Key.path p.package, Key.IsSegment s
  groups : ∀ g ∈ p.groups, Key.IsSegment g
  name : Key.IsSegment p.name
  key : key = Key.join (Key.path p.package ++ p.groups.map (· ++ suffix) ++ [p.name])

/-- A segment is the group that it names, with the suffix behind it. -/
theorem append_of_groupName? (suffix segment name : String)
    (h : groupName? suffix segment = some name) : segment = name ++ suffix := by
  rcases Option.map_eq_some_iff.mp h with ⟨front, hfront, rfl⟩
  apply String.toList_inj.mp
  rw [String.toList_append, String.toList_ofList]
  exact Text.append_of_dropSuffix? hfront

/-- What the walk from the back has taken are groups with names, and with the
    suffix put back they stand behind the segments that are left. -/
theorem takeGroups_eq_ok (key suffix : String) (segments groups groups' rest : List String)
    (h : takeGroups key suffix groups segments = .ok (groups', rest)) :
    ∃ taken, groups' = taken ++ groups ∧
      segments.reverse = rest.reverse ++ taken.map (· ++ suffix) ∧ ∀ g ∈ taken, g ≠ "" := by
  -- The groups that are handed on grow with every segment that is taken.
  induction segments generalizing groups with
  | nil =>
      cases h
      exact ⟨[], rfl, rfl, fun g hg => absurd hg List.not_mem_nil⟩
  | cons segment front ih =>
      rw [takeGroups] at h
      split at h
      · cases h
        refine ⟨[], rfl, ?_, fun g hg => absurd hg List.not_mem_nil⟩
        rw [List.map_nil, List.append_nil]
      · next name hname =>
          split at h
          · cases h
          · next hempty =>
              rcases ih (name :: groups) h with ⟨taken, hgroups, hfront, htaken⟩
              refine ⟨taken ++ [name], ?_, ?_, ?_⟩
              · rw [hgroups, List.append_assoc, List.singleton_append]
              · rw [List.reverse_cons, hfront, append_of_groupName? suffix segment name hname,
                  List.map_append, List.append_assoc, List.map_cons, List.map_nil]
              · intro g hg
                rcases List.mem_append.mp hg with hg | hg
                · exact htaken g hg
                · rw [List.mem_singleton.mp hg]
                  intro hname'
                  exact hempty (String.isEmpty_iff.mpr hname')

/-- The name of a key is its last segment, and the other segments stand in front. -/
theorem splitName_eq (key : String) (hkey : Key.WellFormed key) :
    splitName key = ((Key.segments key).dropLast, (Key.segments key).getLastD "") := by
  have hfront : (Key.segments key).dropLast ≠ [""] := by
    intro heq
    have hmem : "" ∈ Key.segments key :=
      List.dropLast_subset _ (heq ▸ List.mem_singleton_self "")
    exact ((Key.wellFormed_iff key).mp hkey "" hmem).1 rfl
  rw [splitName, if_neg hfront]

/-- The last of some segments is the name, and the others stand in front. -/
theorem splitName_join (front : List String) (name : String)
    (hfront : ∀ s ∈ front, Key.IsSegment s) (hname : Key.IsSegment name) :
    splitName (Key.join (front ++ [name])) = (front, name) := by
  have hall : ∀ s ∈ front ++ [name], Key.IsSegment s := by
    intro s hs
    rcases List.mem_append.mp hs with hs | hs
    · exact hfront s hs
    · exact List.mem_singleton.mp hs ▸ hname
  have hne : front ++ [name] ≠ [] := List.append_ne_nil_of_right_ne_nil front (List.cons_ne_nil _ _)
  rw [splitName_eq _ ⟨front ++ [name], hne, hall, rfl⟩,
    Key.segments_join _ hne (fun s hs => (hall s hs).2), List.dropLast_concat,
    List.getLastD_concat]

/-- A text whose end with the suffix is a segment is a segment, if it is not
    empty. -/
theorem isSegment_of_append (g suffix : String) (hne : g ≠ "")
    (h : Key.IsSegment (g ++ suffix)) : Key.IsSegment g := by
  refine ⟨hne, ?_⟩
  intro hmem
  apply h.2
  rw [String.toList_append]
  exact List.mem_append_left _ hmem

/-- A placement makes up the key that it was found for. -/
theorem spells_ofKey (suffix? : Option String) (key : String) (p : Placement)
    (hkey : Key.WellFormed key) (h : ofKey suffix? key = .ok p) :
    p.Spells (suffix?.getD "") key := by
  rcases hkey with ⟨parts, hne, hparts, rfl⟩
  have hsplit : parts.dropLast ++ [parts.getLast hne] = parts := List.dropLast_append_getLast hne
  have hfront : ∀ s ∈ parts.dropLast, Key.IsSegment s :=
    fun s hs => hparts s (List.dropLast_subset parts hs)
  have hname : Key.IsSegment (parts.getLast hne) := hparts _ (List.getLast_mem hne)
  -- From here on the key is some segments and a name.
  generalize parts.dropLast = front at hsplit hfront
  generalize parts.getLast hne = name at hsplit hname
  subst hsplit
  rw [ofKey, splitName_join front name hfront hname] at h
  cases suffix? with
  | none =>
      cases h
      refine ⟨?_, fun g hg => absurd hg List.not_mem_nil, hname, ?_⟩
      · rw [Key.path_join front hfront]
        exact hfront
      · rw [Key.path_join front hfront, List.map_nil, List.append_nil]
  | some suffix =>
      rcases (Fallible.bind_eq_ok_iff _ _ _).mp h with ⟨⟨groups, rest⟩, htake, h⟩
      cases h
      rcases takeGroups_eq_ok _ suffix front.reverse [] groups rest htake with
        ⟨taken, hgroups, hrest, htaken⟩
      rw [List.append_nil] at hgroups
      rw [List.reverse_reverse] at hrest
      subst hgroups
      have hpackage : ∀ s ∈ rest.reverse, Key.IsSegment s :=
        fun s hs => hfront s (hrest ▸ List.mem_append_left _ hs)
      refine ⟨?_, ?_, hname, ?_⟩
      · rw [Key.path_join rest.reverse hpackage]
        exact hpackage
      · intro g hg
        refine isSegment_of_append g suffix (htaken g hg) (hfront _ ?_)
        rw [hrest]
        exact List.mem_append_right _ (List.mem_map.mpr ⟨g, hg, rfl⟩)
      · rw [Key.path_join rest.reverse hpackage, hrest]
        rfl

/-- A placement makes up one key only. -/
theorem eq_of_spells (suffix : String) (p : Placement) (key key' : String)
    (h : p.Spells suffix key) (h' : p.Spells suffix key') : key = key' := by
  rw [h.key, h'.key]

end Placement

end Phrasebook
