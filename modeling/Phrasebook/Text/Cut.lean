/-!
# Cutting Texts

Cutting a text at the first occurrence of a pattern, and cutting a suffix off.

## Main definitions

* `cut?`: The parts before and after the first occurrence of a pattern.
* `dropSuffix?`: A text without a suffix that it ends with.

## Theorems

* `append_of_cut?`: The two parts and the pattern make up the text.
* `append_of_dropSuffix?`: The rest and the suffix make up the text.
-/

namespace Phrasebook

namespace Text

/-- The texts before and after the first occurrence of `pattern`. -/
def cut? (pattern : List Char) : List Char → Option (List Char × List Char)
  | [] => if pattern = [] then some ([], []) else none
  | c :: cs =>
    if pattern.isPrefixOf (c :: cs) then some ([], (c :: cs).drop pattern.length)
    else (cut? pattern cs).map (fun parts => (c :: parts.1, parts.2))

/-- The text in front of `suffix`, if the text ends with it. -/
def dropSuffix? (suffix s : List Char) : Option (List Char) :=
  if suffix.isSuffixOf s then some (s.take (s.length - suffix.length)) else none

/-- The two parts and the pattern between them make up the text. -/
theorem append_of_cut? {pattern s before after : List Char}
    (h : cut? pattern s = some (before, after)) : s = before ++ pattern ++ after := by
  induction s generalizing before after with
  | nil =>
    simp only [cut?] at h
    split at h
    next hp => cases h; simp [hp]
    next => cases h
  | cons c cs ih =>
    simp only [cut?] at h
    split at h
    next hp =>
      cases h
      obtain ⟨rest, hrest⟩ := List.isPrefixOf_iff_prefix.mp hp
      rw [← hrest, List.nil_append, List.drop_left]
    next =>
      obtain ⟨parts, hparts, heq⟩ := Option.map_eq_some_iff.mp h
      cases heq
      rw [ih hparts, List.cons_append, List.cons_append]

/-- The rest and the suffix make up the text. -/
theorem append_of_dropSuffix? {suffix s rest : List Char}
    (h : dropSuffix? suffix s = some rest) : s = rest ++ suffix := by
  simp only [dropSuffix?] at h
  split at h
  next hs =>
    cases h
    obtain ⟨front, hfront⟩ := List.isSuffixOf_iff_suffix.mp hs
    rw [← hfront, List.length_append, Nat.add_sub_cancel, List.take_left]
  next => cases h

end Text

end Phrasebook
