import Mathlib.Data.List.Basic
import Mathlib.Tactic.ByContra
import Phrasebook.Locale.Key

/-!
# Keys as Lists of Segments

A key is a text, but all that is said of it is about its segments: its package
is what stands in front of the last one, and an inner group is read off the end
of one. This module is the passage between the two. A key that comes out of a
document is made of segments that are not empty and have no separator of their
own, so joining them loses nothing.

The empty text is the one exception. It is the name of the root package, which
has no segments at all, while splitting it gives one segment that is empty.
`Key.path` settles that, and with it `Key.path_join` holds of every list of
segments, the empty one included.

## Main definitions

* `Key.IsSegment`: A text that can stand between separators.
* `Key.WellFormed`: A key made of such segments, as documents give them.
* `Key.path`: The segments of a text, none of the empty one.

## Theorems

* `Key.segments_join`, `Key.join_segments`: Splitting and joining undo each other.
* `Key.wellFormed_iff`: Well-formed keys are known by their segments.
* `Key.join_append`, `Key.join_append_singleton`: Segments, or a name, behind some
  segments.
* `Key.join_eq_empty_iff`: Only no segments at all make up the empty text.
* `Key.path_join`: The segments of joined segments.
* `Key.join_path`: The text of the segments of a text.
* `Key.eq_of_join_eq`, `Key.eq_of_join_eq_of_ne_nil`: Segments are determined by
  their text.
* `Key.separator_not_mem_normalize`: A name becomes a text without separators.
* `Key.normalize_eq_empty_iff`: Names without segments, by the keys that they give.
-/

namespace Phrasebook

namespace Key

/-- A text that can stand between separators: it is not empty, and has no
    separator itself. -/
def IsSegment (s : String) : Prop := s ≠ "" ∧ separator ∉ s.toList

instance (s : String) : Decidable (IsSegment s) := inferInstanceAs (Decidable (_ ∧ _))

/-- A key as documents give them: one or more segments, joined. -/
def WellFormed (key : String) : Prop :=
  ∃ parts, parts ≠ [] ∧ (∀ s ∈ parts, IsSegment s) ∧ key = join parts

/-- The segments of a text, which are none if it is empty. -/
def path (key : String) : List String := if key = "" then [] else segments key

/-- Splitting undoes joining. -/
theorem segments_join (parts : List String) (hne : parts ≠ [])
    (h : ∀ s ∈ parts, separator ∉ s.toList) : segments (join parts) = parts := by
  have hsplit : ([separator].intercalate (parts.map String.toList)).splitOn separator =
      parts.map String.toList := by
    refine List.splitOn_intercalate separator ?_ ?_
    · intro l hl
      rcases List.mem_map.mp hl with ⟨s, hs, rfl⟩
      exact h s hs
    · intro hmap
      exact hne (List.map_eq_nil_iff.mp hmap)
  -- The separator is one character, so joining texts is joining their lists.
  have hdot : ".".toList = [separator] := rfl
  rw [segments, join, String.toList_intercalate, hdot, hsplit, List.map_map]
  have hid : (String.ofList ∘ String.toList) = id := funext (fun s => String.ofList_toList)
  rw [hid, List.map_id]

/-- Joining undoes splitting. -/
theorem join_segments (key : String) : join (segments key) = key := by
  apply String.toList_inj.mp
  have hid : (String.toList ∘ String.ofList) = id := funext (fun l => String.toList_ofList)
  have hdot : ".".toList = [separator] := rfl
  rw [join, String.toList_intercalate, segments, List.map_map, hid, List.map_id, hdot,
    List.intercalate_splitOn]

/-- A key is well-formed exactly if each text between its separators is a
    segment. -/
theorem wellFormed_iff (key : String) : WellFormed key ↔ ∀ s ∈ segments key, IsSegment s := by
  constructor
  · rintro ⟨parts, hne, hparts, rfl⟩
    rw [segments_join parts hne (fun s hs => (hparts s hs).2)]
    exact hparts
  · intro h
    have hne : segments key ≠ [] :=
      fun hnil => List.splitOn_ne_nil separator key.toList (List.map_eq_nil_iff.mp hnil)
    exact ⟨segments key, hne, h, (join_segments key).symm⟩

instance (key : String) : Decidable (WellFormed key) :=
  decidable_of_iff _ (wellFormed_iff key).symm

/-- Joining some segments and then more puts a separator in between. -/
theorem join_append (front back : List String) (hfront : front ≠ []) (hback : back ≠ []) :
    join (front ++ back) = join front ++ "." ++ join back :=
  String.intercalate_append_of_ne_nil hfront hback

/-- Behind some segments a name follows a separator. -/
theorem join_append_singleton (parts : List String) (name : String) (h : parts ≠ []) :
    join (parts ++ [name]) = join parts ++ "." ++ name := by
  rw [join_append parts [name] h (List.cons_ne_nil name []), join, join,
    String.intercalate_singleton]

/-- Only no segments at all make up the empty text. -/
theorem join_eq_empty_iff (parts : List String) (h : "" ∉ parts) :
    join parts = "" ↔ parts = [] := by
  constructor
  · intro hjoin
    rcases List.eq_nil_or_concat parts with hnil | ⟨front, name, hparts⟩
    · exact hnil
    · exfalso
      rw [List.concat_eq_append] at hparts
      subst hparts
      by_cases hfront : front = []
      · rw [hfront, List.nil_append, join, String.intercalate_singleton] at hjoin
        exact h (hjoin ▸ List.mem_append_right front (List.mem_singleton_self name))
      · -- A separator stands between the two, so the text has a length.
        rw [join_append_singleton front name hfront] at hjoin
        have hlength := congrArg String.length hjoin
        simp only [String.length_append] at hlength
        have hdot : ".".length = 1 := rfl
        have hempty : "".length = 0 := rfl
        omega
  · intro hnil
    rw [hnil]
    rfl

/-- The empty text is none of some segments. -/
theorem empty_not_mem (parts : List String) (h : ∀ s ∈ parts, IsSegment s) : "" ∉ parts :=
  fun hmem => (h "" hmem).1 rfl

/-- The segments of joined segments. -/
theorem path_join (parts : List String) (h : ∀ s ∈ parts, IsSegment s) :
    path (join parts) = parts := by
  rw [path]
  by_cases hnil : parts = []
  · rw [hnil]
    exact if_pos rfl
  · rw [if_neg (fun hjoin => hnil ((join_eq_empty_iff parts (empty_not_mem parts h)).mp hjoin)),
      segments_join parts hnil (fun s hs => (h s hs).2)]

/-- The text of the segments of a text. -/
theorem join_path (key : String) : join (path key) = key := by
  rw [path]
  by_cases hempty : key = ""
  · rw [if_pos hempty, hempty]
    rfl
  · rw [if_neg hempty, join_segments]

/-- Segments are determined by their text. -/
theorem eq_of_join_eq (parts parts' : List String) (h : ∀ s ∈ parts, IsSegment s)
    (h' : ∀ s ∈ parts', IsSegment s) (hjoin : join parts = join parts') : parts = parts' := by
  rw [← path_join parts h, ← path_join parts' h', hjoin]

/-- Texts without separators are determined by the text that joins them, empty ones
    included, if there are any at all. -/
theorem eq_of_join_eq_of_ne_nil (parts parts' : List String) (hne : parts ≠ []) (hne' : parts' ≠ [])
    (h : ∀ s ∈ parts, separator ∉ s.toList) (h' : ∀ s ∈ parts', separator ∉ s.toList)
    (hjoin : join parts = join parts') : parts = parts' := by
  rw [← segments_join parts hne h, ← segments_join parts' hne' h', hjoin]

/-- A name that is a segment has no separator. -/
theorem separator_not_mem_normalize (name : String) : separator ∉ (normalize name).toList := by
  intro hmem
  rw [normalize, String.toList_ofList, Text.trim, Text.trimBy, List.mem_reverse] at hmem
  have hkept := List.mem_reverse.mp ((List.dropWhile_suffix _).mem hmem)
  have hfiltered := (List.dropWhile_suffix _).mem hkept
  rw [List.mem_filter] at hfiltered
  exact absurd rfl (of_decide_eq_true hfiltered.2)

/-- A name has no segment exactly if the key that it gives is unfinished. -/
theorem normalize_eq_empty_iff (parent : Option String) (name : String) :
    normalize name = "" ↔ isUnfinished (extend parent name) = true := by
  rw [isUnfinished, Bool.or_eq_true, String.isEmpty_iff, decide_eq_true_eq]
  have hfree := separator_not_mem_normalize name
  cases parent with
  | none =>
      constructor
      · exact Or.inl
      · rintro (hempty | hlast)
        · exact hempty
        · exact absurd (List.mem_of_getLast? hlast) hfree
  | some key =>
      -- The separator stands between the parent and the name, so only the name can end the key.
      have hkey : (extend (some key) name).toList =
          key.toList ++ separator :: (normalize name).toList := by
        rw [extend, String.toList_append, String.toList_append, List.append_assoc]
        rfl
      have hne : extend (some key) name ≠ "" := by
        intro hempty
        rw [hempty] at hkey
        exact List.append_ne_nil_of_right_ne_nil _ (List.cons_ne_nil _ _) hkey.symm
      rw [or_iff_right hne, hkey]
      constructor
      · intro hempty
        rw [hempty]
        exact List.getLast?_concat
      · intro hlast
        -- A name that is not empty would put a separator at its own end.
        cases hname : (normalize name).toList with
        | nil => exact String.toList_inj.mp hname
        | cons c cs =>
            rw [hname, List.getLast?_append_of_ne_nil _ (List.cons_ne_nil _ _),
              List.getLast?_cons_cons, ← hname] at hlast
            exact absurd (List.mem_of_getLast? hlast) hfree

end Key

end Phrasebook
