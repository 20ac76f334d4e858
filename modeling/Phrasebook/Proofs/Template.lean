import Phrasebook.Message.Template
import Phrasebook.Proofs.Replace

/-!
# Texts That Write a Template

A text writes a template exactly if the marker stands at one place of it. That is not
what is checked: the text is cut at the first marker, and no other may stand in what is
behind. The two come to the same because the marker is in braces. Another one can stand
neither in front of the first nor across its end, so it stands behind.

## Theorems

* `Text.cut?_eq_none_iff`: A text cannot be cut exactly if the pattern stands nowhere.
* `Text.length_le_of_cut?`: A text is cut at the first place of the pattern.
* `Text.Braced.exists_of_append_eq`: Two places of a pattern in braces do not touch.
* `Text.Braced.occursOnce_of_not_infix`: Around a pattern in braces there is no second
  place of it but in the texts on its sides.
* `Text.occursOnce_iff`: A pattern in braces stands at one place exactly if it does not
  stand behind the first.
* `Template.ofString?_eq_some_iff`: Which template a text writes.
* `Template.isSome_ofString?_iff`: Which texts write one.
-/

namespace Phrasebook

namespace Text

theorem cut?_eq_none_iff (pattern s : List Char) : cut? pattern s = none ↔ ¬ pattern <:+: s := by
  induction s with
  | nil =>
      rw [cut?, List.infix_nil]
      by_cases hnil : pattern = []
      · simp [hnil]
      · simp [hnil]
  | cons c cs ih =>
      rw [cut?, List.infix_cons_iff]
      -- The pattern is searched for at each position from the left.
      by_cases hfront : pattern <+: c :: cs
      · rw [if_pos (List.isPrefixOf_iff_prefix.mpr hfront)]
        constructor
        · intro h
          cases h
        · intro h
          exact absurd (Or.inl hfront) h
      · rw [if_neg (fun h => hfront (List.isPrefixOf_iff_prefix.mp h)), Option.map_eq_none_iff, ih,
          or_iff_right hfront]

/-- The pattern stands nowhere in front of the place where a text is cut. -/
theorem length_le_of_cut? (pattern s before after : List Char)
    (h : cut? pattern s = some (before, after)) (front back : List Char)
    (hs : s = front ++ (pattern ++ back)) : before.length ≤ front.length := by
  induction s generalizing before front with
  | nil =>
      rw [cut?] at h
      split at h
      · cases h
        exact Nat.zero_le _
      · cases h
  | cons c cs ih =>
      rw [cut?] at h
      split at h
      · cases h
        exact Nat.zero_le _
      · next hmiss =>
          rcases Option.map_eq_some_iff.mp h with ⟨parts, hparts, heq⟩
          cases heq
          -- The cut was not taken here, so no occurrence begins here.
          cases front with
          | nil => exact absurd (List.isPrefixOf_iff_prefix.mpr ⟨back, hs.symm⟩) hmiss
          | cons x front =>
              rw [List.length_cons, List.length_cons]
              exact Nat.succ_le_succ (ih parts.1 hparts front (List.cons.inj hs).2)

/-- A pattern in braces that stands in front of a text and further behind in it does so
    at two places that do not touch each other. -/
theorem Braced.exists_of_append_eq {p : List Char} (hp : Braced p) (x back back' : List Char)
    (hx : x ≠ []) (h : p ++ back = x ++ (p ++ back')) :
    ∃ between, x = p ++ between ∧ back = between ++ (p ++ back') := by
  rcases List.append_eq_append_iff.mp h with ⟨y, rfl, hback⟩ | ⟨y, hy, hback⟩
  · exact ⟨y, rfl, hback⟩
  · cases y with
    | nil =>
        rw [List.append_nil] at hy
        exact ⟨[], by rw [hy, List.append_nil], hback.symm⟩
    | cons c y =>
        -- The second would open inside the first.
        exfalso
        rcases hp.exists_cons with ⟨rest, hrest⟩
        have hopen : '\x7b' = c := by
          rw [hrest, List.cons_append, List.cons_append, List.cons.injEq] at hback
          exact hback.1
        refine Braced.openBrace_not_mem x (c :: y) (hy ▸ hp) hx ?_
        rw [hopen]
        exact List.mem_cons_self

/-- It stands in what is left behind the first. -/
theorem Braced.infix_of_append_eq {p : List Char} (hp : Braced p) (x back back' : List Char)
    (hx : x ≠ []) (h : p ++ back = x ++ (p ++ back')) : p <:+: back := by
  rcases hp.exists_of_append_eq x back back' hx h with ⟨between, -, hback⟩
  exact ⟨between, back', by rw [hback, List.append_assoc]⟩

/-- A pattern in braces stands at one place between two texts in which it stands nowhere. -/
theorem Braced.occursOnce_of_not_infix {p : List Char} (hp : Braced p) (front back : List Char)
    (hfront : ¬ p <:+: front) (hback : ¬ p <:+: back) : OccursOnce p (front ++ (p ++ back)) := by
  refine ⟨front, ⟨back, rfl⟩, ?_⟩
  rintro front' ⟨back', h⟩
  -- One of the two places would be in front of the other, and so outside the pattern.
  rcases List.append_eq_append_iff.mp h with ⟨x, rfl, hrest⟩ | ⟨x, rfl, hrest⟩
  · by_contra hne
    have hx : x ≠ [] := fun hnil => hne (by rw [hnil, List.append_nil])
    exact hback (hp.infix_of_append_eq x back back' hx hrest)
  · by_contra hne
    have hx : x ≠ [] := fun hnil => hne (by rw [hnil, List.append_nil])
    rcases hp.exists_of_append_eq x back' back hx hrest with ⟨between, hbetween, -⟩
    refine hfront ⟨front', between, ?_⟩
    rw [hbetween, List.append_assoc]

theorem occursOnce_iff (p s : List Char) (hp : Braced p) :
    OccursOnce p s ↔ ∃ before after, cut? p s = some (before, after) ∧ ¬ p <:+: after := by
  constructor
  · rintro ⟨front, ⟨back, hs⟩, hunique⟩
    cases hcut : cut? p s with
    | none =>
        refine absurd ?_ ((cut?_eq_none_iff p s).mp hcut)
        exact ⟨front, back, by rw [hs, List.append_assoc]⟩
    | some parts =>
        rcases parts with ⟨before, after⟩
        have hparts := append_of_cut? hcut
        refine ⟨before, after, rfl, ?_⟩
        rintro ⟨x, y, rfl⟩
        -- Two places of the pattern, of which the second has the first in front of it.
        have hfirst := hunique before ⟨_, by rw [hparts, List.append_assoc]⟩
        have hsecond := hunique (before ++ (p ++ x)) ⟨y, by rw [hparts]; simp [List.append_assoc]⟩
        have hlength := congrArg List.length (hfirst.trans hsecond.symm)
        have hpos := List.length_pos_iff.mpr hp.ne_nil
        rw [List.length_append, List.length_append] at hlength
        omega
  · rintro ⟨before, after, hcut, hafter⟩
    have hparts := append_of_cut? hcut
    refine ⟨before, ⟨after, by rw [hparts, List.append_assoc]⟩, ?_⟩
    rintro front ⟨back, hs⟩
    have hle := length_le_of_cut? p s before after hcut front back hs
    rw [hparts, List.append_assoc] at hs
    rcases List.append_eq_append_iff.mp hs with ⟨x, rfl, hrest⟩ | ⟨x, rfl, hrest⟩
    · by_contra hne
      have hx : x ≠ [] := fun hnil => hne (by rw [hnil, List.append_nil])
      exact hafter (Braced.infix_of_append_eq hp x after back hx hrest)
    · rw [List.length_append] at hle
      have hnil : x = [] := List.length_eq_zero_iff.mp (by omega)
      rw [hnil, List.append_nil]

end Text

namespace Template

theorem braced_marker : Text.Braced marker.toList := ⟨"var".toList, by decide, by decide⟩

/-- A text is a template filled with the marker exactly if its parts stand around the
    marker. -/
theorem fill_marker_eq_iff (text : String) (t : Template) :
    text = t.fill marker ↔ text.toList = t.lead.toList ++ (marker.toList ++ t.trail.toList) := by
  rw [← String.toList_inj, fill, String.toList_append, String.toList_append, List.append_assoc]

/-- A text writes the template that gives the text when it is filled with the marker, if
    the marker stands at one place only. -/
theorem ofString?_eq_some_iff (text : String) (t : Template) :
    ofString? text = some t ↔ Text.OccursOnce marker.toList text.toList ∧ text = t.fill marker := by
  -- Where the text is cut says which template is written.
  have hwritten : ofString? text = some t ↔ ∃ lead trail,
      Text.cut? marker.toList text.toList = some (lead, trail) ∧
      ¬ marker.toList <:+: trail ∧ t = ⟨String.ofList lead, String.ofList trail⟩ := by
    unfold ofString?
    simp only [bind, Option.bind_eq_some_iff, Prod.exists]
    refine exists_congr (fun lead => exists_congr (fun trail => and_congr_right (fun _ => ?_)))
    by_cases hbehind : marker.toList <:+: trail
    · have hsome : (Text.cut? marker.toList trail).isSome = true := by
        rw [Option.isSome_iff_ne_none, ne_eq, Text.cut?_eq_none_iff, not_not]
        exact hbehind
      simp [hsome, hbehind]
    · have hnone := (Text.cut?_eq_none_iff marker.toList trail).mpr hbehind
      simp [hnone, hbehind, eq_comm]
  rw [hwritten]
  constructor
  · rintro ⟨lead, trail, hcut, hbehind, rfl⟩
    refine ⟨(Text.occursOnce_iff _ _ braced_marker).mpr ⟨lead, trail, hcut, hbehind⟩, ?_⟩
    rw [fill_marker_eq_iff, String.toList_ofList, String.toList_ofList, Text.append_of_cut? hcut,
      List.append_assoc]
  · rintro ⟨honce, hfill⟩
    rcases (Text.occursOnce_iff _ _ braced_marker).mp honce with ⟨lead, trail, hcut, hbehind⟩
    refine ⟨lead, trail, hcut, hbehind, ?_⟩
    have hcut := Text.append_of_cut? hcut
    rw [List.append_assoc] at hcut
    have hfill := (fill_marker_eq_iff text t).mp hfill
    -- Both show a place of the marker, and there is only one.
    have hlead : lead = t.lead.toList := honce.unique ⟨trail, hcut⟩ ⟨_, hfill⟩
    rw [hfill, hlead] at hcut
    have htrail := List.append_cancel_left (List.append_cancel_left hcut)
    rw [hlead, ← htrail, String.ofList_toList, String.ofList_toList]

/-- A text writes a template exactly if the marker stands in it at one place. -/
theorem isSome_ofString?_iff (text : String) :
    (ofString? text).isSome = true ↔ Text.OccursOnce marker.toList text.toList := by
  rw [Option.isSome_iff_exists]
  constructor
  · rintro ⟨t, ht⟩
    exact ((ofString?_eq_some_iff text t).mp ht).1
  · intro honce
    -- The texts around the one occurrence are the template.
    rcases honce.exists with ⟨lead, trail, hsplit⟩
    let t : Template := ⟨String.ofList lead, String.ofList trail⟩
    refine ⟨t, (ofString?_eq_some_iff text t).mpr ⟨honce, ?_⟩⟩
    rw [fill_marker_eq_iff, String.toList_ofList, String.toList_ofList, hsplit]

end Template

end Phrasebook
