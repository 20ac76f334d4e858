import Phrasebook.Proofs.Clashes

/-!
# Placements Split Keys

That a placement makes up its key does not say which placement a key has: segments
that end with the suffix could be left in the package, and a key be split in as many
ways. The walk from the back decides that. It takes a segment whenever it can, so the
package that is left ends with a segment without the suffix, and a key has one split
of that kind at most (`Splits.unique`). A placement is therefore known without the
walk (`ofKey_eq_ok_iff`).

The segments in front of a group have to end with the suffix without being the suffix
alone, since a group has a name. A key whose marked segments include the bare suffix
has no split at all, and those are the keys without a placement.

A suffix may have a separator in it, and then it marks nothing, since no segment has
one. A split must therefore ask of each group with the suffix behind it that it is one
segment; the text of the key alone would not tell.

## Main definitions

* `Placement.Splits`: A placement makes up a key, and its package goes no further back
  than it has to.

## Theorems

* `Placement.rest_of_takeGroups`: The walk stops at the first segment without the
  suffix.
* `Placement.parts_of_ofKey`: The parts of a placement, against the segments of its key.
* `Placement.splits_ofKey`: The placement of a key splits it.
* `Placement.Splits.segments_eq`, `Placement.Splits.markedSegments_eq`: The segments of
  a key that is split, and those of its groups.
* `Placement.Splits.unique`: A key has one split at most.
* `Placement.ofKey_eq_ok_iff`: The placement of a key is its split.
* `Placement.ofKey_splits`: Which placement a key has, and which keys have none.
-/

namespace Phrasebook

namespace Placement

/-- A placement splits a key: it makes up the key, each of its groups with the suffix
    behind it is one segment, and the last segment of the package does not end with the
    suffix. Without a suffix there are no groups. -/
structure Splits (suffix? : Option String) (p : Placement) (key : String) : Prop where
  spells : p.Spells (suffix?.getD "") key
  marked : ∀ g ∈ p.groups, ∃ suffix, suffix? = some suffix ∧ Key.IsSegment (g ++ suffix)
  maximal : ∀ suffix, suffix? = some suffix → ∀ last, (Key.path p.package).getLast? = some last →
    isMarked suffix last = false

/-- The walk from the back stops at the first segment without the suffix. -/
theorem rest_of_takeGroups (key suffix : String) (segments groups groups' rest : List String)
    (h : takeGroups key suffix groups segments = .ok (groups', rest)) :
    rest = segments.dropWhile (isMarked suffix) := by
  induction segments generalizing groups with
  | nil =>
      cases h
      rfl
  | cons segment front ih =>
      rw [takeGroups] at h
      split at h
      -- What has no group name does not end with the suffix, so dropping stops there too.
      · next hname =>
          have hother := (groupName?_eq_none_iff suffix segment).mp hname
          rw [List.dropWhile_cons_of_neg (by simp [hother])]
          cases h
          rfl
      · next name hname =>
          rw [List.dropWhile_cons_of_pos (isMarked_of_groupName? suffix segment name hname)]
          split at h
          · cases h
          · exact ih (name :: groups) h

/-- With a suffix, the groups of a placement are the marked segments of its key, and
    the package is what stands in front of these. -/
theorem parts_of_ofKey (suffix key : String) (p : Placement) (hkey : Key.WellFormed key)
    (h : ofKey (some suffix) key = .ok p) :
    p.groups.map (· ++ suffix) = markedSegments suffix key ∧
      Key.path p.package = (Key.segments key).dropLast.rdropWhile (isMarked suffix) := by
  rw [ofKey, splitName_eq key hkey] at h
  rcases (Fallible.bind_eq_ok_iff _ _ _).mp h with ⟨⟨groups, rest⟩, htake, h⟩
  cases h
  rcases takeGroups_eq_ok _ suffix _ [] groups rest htake with ⟨taken, hgroups, hsplit, -⟩
  rw [List.append_nil] at hgroups
  have hrest := rest_of_takeGroups _ suffix _ [] groups rest htake
  -- From the back, what is dropped while it has the suffix is what the groups are made of.
  have hpackage : rest.reverse = (Key.segments key).dropLast.rdropWhile (isMarked suffix) := by
    rw [hrest, List.rdropWhile]
  have hsegments : ∀ s ∈ rest.reverse, Key.IsSegment s := by
    intro s hs
    rw [hpackage] at hs
    exact (Key.wellFormed_iff key).mp hkey s
      (List.dropLast_subset _ ((List.rdropWhile_prefix _ _).mem hs))
  rw [List.reverse_reverse, hpackage] at hsplit
  refine ⟨?_, by rw [Key.path_join rest.reverse hsegments, hpackage]⟩
  rw [hgroups, markedSegments]
  refine (List.append_cancel_left (hsplit.symm.trans ?_))
  exact List.rdropWhile_append_rtakeWhile.symm

/-- The placement of a key splits it. -/
theorem splits_ofKey (suffix? : Option String) (key : String) (p : Placement)
    (hkey : Key.WellFormed key) (h : ofKey suffix? key = .ok p) : p.Splits suffix? key := by
  refine ⟨spells_ofKey suffix? key p hkey h, ?_, ?_⟩
  · intro g hg
    cases suffix? with
    | none =>
        cases h
        exact absurd hg List.not_mem_nil
    | some suffix =>
        -- A group with its suffix is one of the segments of the key.
        have hmarked : g ++ suffix ∈ markedSegments suffix key := by
          rw [← (parts_of_ofKey suffix key p hkey h).1]
          exact List.mem_map_of_mem hg
        exact ⟨suffix, rfl, (Key.wellFormed_iff key).mp hkey _
          (List.dropLast_subset _ ((List.rtakeWhile_suffix _ _).mem hmarked))⟩
  · rintro suffix rfl last hlast
    rw [(parts_of_ofKey suffix key p hkey h).2] at hlast
    rcases List.mem_getLast?_eq_getLast hlast with ⟨hne, rfl⟩
    exact Bool.eq_false_iff.mpr (List.rdropWhile_last_not _ _ hne)

namespace Splits

variable {suffix? : Option String} {key : String} {p q : Placement}

/-- The segments of a key that is split. -/
theorem segments_eq (h : p.Splits suffix? key) : Key.segments key =
    Key.path p.package ++ p.groups.map (· ++ suffix?.getD "") ++ [p.name] := by
  -- No part has a separator. For the groups that is asked with their suffix, which may have
  -- one.
  have hfree : ∀ s ∈ Key.path p.package ++ p.groups.map (· ++ suffix?.getD "") ++ [p.name],
      Key.separator ∉ s.toList := by
    intro s hs
    rcases List.mem_append.mp hs with hs | hs
    · rcases List.mem_append.mp hs with hs | hs
      · exact (h.spells.package s hs).2
      · rcases List.mem_map.mp hs with ⟨g, hg, rfl⟩
        rcases h.marked g hg with ⟨suffix, rfl, hsegment⟩
        exact hsegment.2
    · rw [List.mem_singleton.mp hs]
      exact h.spells.name.2
  rw [h.spells.key]
  exact Key.segments_join _ (List.append_ne_nil_of_right_ne_nil _ (List.cons_ne_nil _ _)) hfree

/-- The groups of a split are the marked segments of its key: the package has none
    behind its last segment without the suffix. -/
theorem markedSegments_eq {suffix : String} (h : p.Splits (some suffix) key) :
    markedSegments suffix key = p.groups.map (· ++ suffix) := by
  have hgroups : ∀ s ∈ (p.groups.map (· ++ suffix)).reverse, isMarked suffix s = true := by
    intro s hs
    rcases List.mem_map.mp (List.mem_reverse.mp hs) with ⟨g, -, rfl⟩
    rw [isMarked, List.isSuffixOf_iff_suffix, String.toList_append]
    exact List.suffix_append _ _
  -- From the back, the groups are passed over, and the package stops the run at once.
  have hpackage : (Key.path p.package).rtakeWhile (isMarked suffix) = [] := by
    rw [List.rtakeWhile_eq_nil_iff]
    intro hne
    rw [h.maximal suffix rfl _ (List.getLast?_eq_getLast_of_ne_nil hne)]
    exact Bool.false_ne_true
  have hsegments : Key.segments key =
      Key.path p.package ++ p.groups.map (· ++ suffix) ++ [p.name] := h.segments_eq
  rw [List.rtakeWhile, List.reverse_eq_nil_iff] at hpackage
  rw [markedSegments, hsegments, List.dropLast_concat, List.rtakeWhile, List.reverse_append,
    List.takeWhile_append_of_pos hgroups, hpackage, List.append_nil, List.reverse_reverse]

/-- A key has one split at most. -/
theorem unique (h : p.Splits suffix? key) (h' : q.Splits suffix? key) : p = q := by
  have hgroups : p.groups = q.groups := by
    cases suffix? with
    | none =>
        have hnone : ∀ r : Placement, r.Splits none key → r.groups = [] := by
          intro r hr
          refine List.eq_nil_iff_forall_not_mem.mpr (fun g hg => ?_)
          rcases hr.marked g hg with ⟨suffix, hsuffix, -⟩
          cases hsuffix
        rw [hnone p h, hnone q h']
    | some suffix =>
        have hinj : Function.Injective (fun g : String => g ++ suffix) :=
          fun g g' heq => (String.append_left_inj suffix).mp heq
        exact List.map_injective_iff.mpr hinj (h.markedSegments_eq.symm.trans h'.markedSegments_eq)
  -- Behind the package stand as many segments in both, so they can be compared from the back.
  have hsegments := h.segments_eq.symm.trans h'.segments_eq
  rcases List.append_inj' hsegments rfl with ⟨hfront, hname⟩
  rw [hgroups] at hfront
  have hpackage := congrArg Key.join (List.append_cancel_right hfront)
  rw [Key.join_path, Key.join_path] at hpackage
  cases p
  cases q
  simp only [Placement.mk.injEq]
  exact ⟨hpackage, hgroups, (List.cons.inj hname).1⟩

end Splits

/-- The placement of a key is its split. -/
theorem ofKey_eq_ok_iff (suffix? : Option String) (key : String) (p : Placement)
    (hkey : Key.WellFormed key) : ofKey suffix? key = .ok p ↔ p.Splits suffix? key := by
  refine ⟨splits_ofKey suffix? key p hkey, fun h => ?_⟩
  cases hplace : ofKey suffix? key with
  | ok q => rw [(splits_ofKey suffix? key q hkey hplace).unique h]
  | error d =>
      -- A marked segment would be the suffix alone, and so a group without a name.
      exfalso
      rcases (ofKey_eq_error_iff suffix? key hkey d).mp hplace with ⟨suffix, rfl, hbare, -⟩
      rw [h.markedSegments_eq] at hbare
      rcases List.mem_map.mp hbare with ⟨g, hg, heq⟩
      exact (h.spells.groups g hg).1 (String.append_eq_right_iff.mp heq)

/-- A suffix with a separator marks no segment, though the key goes on with it. -/
example : ofKey (some ".x") "a.x.b" = .ok ⟨"a.x", [], "b"⟩ := by decide +kernel

/-- The placement of a key is the one way to split it: package, groups and name make up
    the key again, and the last segment of the package does not end with the suffix. So
    two keys never have one placement. A key has none exactly if one of its marked
    segments, which are the last in front of the name that end with the suffix, is the
    suffix alone. -/
theorem ofKey_splits (suffix? : Option String) (key : String) (hkey : Key.WellFormed key) :
    (∀ p, ofKey suffix? key = .ok p ↔ p.Splits suffix? key) ∧
    (∀ key' p, Key.WellFormed key' → ofKey suffix? key = .ok p → ofKey suffix? key' = .ok p →
      key = key') ∧
    ∀ d, ofKey suffix? key = .error d ↔ ∃ suffix, suffix? = some suffix ∧
      suffix ∈ markedSegments suffix key ∧ d = .malformed key (.bareSuffix suffix) := by
  refine ⟨fun p => ofKey_eq_ok_iff suffix? key p hkey, ?_, ofKey_eq_error_iff suffix? key hkey⟩
  intro key' p hkey' hplace hplace'
  exact eq_of_ofKey suffix? key key' hkey hkey' p hplace hplace'

/-- A marked segment in front of a plain one stays in the package, and a group may be
    called by a name that ends with the suffix, but not by none. -/
theorem ofKey_splits_nested :
    ofKey (some "_nested") "menu_nested.app.a_nested_nested.b_nested.item" =
      .ok ⟨"menu_nested.app", ["a_nested", "b"], "item"⟩ ∧
    ofKey (some "_nested") "app._nested.b_nested.item" =
      .error (.malformed "app._nested.b_nested.item" (.bareSuffix "_nested")) := by
  constructor
  · have hsplit := ofKey_splits (some "_nested") "menu_nested.app.a_nested_nested.b_nested.item"
      (by decide +kernel)
    refine (hsplit.1 _).mpr ⟨⟨?_, ?_, ?_, ?_⟩, fun g hg => ⟨"_nested", rfl, ?_⟩, ?_⟩
    · decide +kernel
    · decide +kernel
    · decide +kernel
    · decide +kernel
    · revert g
      decide +kernel
    · intro suffix hsuffix last hlast
      cases hsuffix
      have hpackage : (Key.path "menu_nested.app").getLast? = some "app" := by decide +kernel
      rw [hpackage] at hlast
      cases hlast
      decide +kernel
  · have hsplit := ofKey_splits (some "_nested") "app._nested.b_nested.item" (by decide +kernel)
    exact (hsplit.2.2 _).mpr ⟨"_nested", rfl, by decide +kernel, rfl⟩

end Placement

end Phrasebook
