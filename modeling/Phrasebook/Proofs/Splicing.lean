import Phrasebook.Placeholder.Argument
import Phrasebook.Proofs.Problems
import Phrasebook.Proofs.Template

/-!
# Values in Templates

A template is written as a text with a marker in it, kept as the two parts around the
marker, and used by putting a value between them. Writing, keeping and using agree if
the marker stands at one place: then the parts are what stands around it, and a value
between them is the text in which the marker was replaced, whatever the value is. A
marker in the value is not replaced again, since the value is never looked at.

In a configuration a template can be any text, and one that writes no template shows
the value as it is, which is not what was asked for. A valid configuration has no such
text, so there the types of arguments show values as they are written to
(`resolve_of_valid`).

## Theorems

* `Template.ofString?_fill_marker`: Which parts a text has around its marker.
* `Template.toList_fill`: A value in a template, as a replacement of the marker.
* `Config.Valid.exists_template`: The types of a valid configuration write templates.
* `Argument.resolve_of_valid`: Arguments of custom types.
* `Template.ofString?_splices`: What is known of templates, from their text to values.
-/

namespace Phrasebook

namespace Template

/-- Parts without the marker are found again around it. -/
theorem ofString?_fill_marker (t : Template) (hlead : ¬ marker.toList <:+: t.lead.toList)
    (htrail : ¬ marker.toList <:+: t.trail.toList) : ofString? (t.fill marker) = some t := by
  rw [ofString?_eq_some_iff]
  refine ⟨?_, rfl⟩
  rw [(fill_marker_eq_iff (t.fill marker) t).mp rfl]
  exact Text.Braced.occursOnce_of_not_infix braced_marker _ _ hlead htrail

/-- A value in the template that a text writes is the text with the value for the
    marker. -/
theorem toList_fill (text : String) (t : Template) (h : ofString? text = some t)
    (value : String) :
    (t.fill value).toList = Text.replace marker.toList value.toList text.toList := by
  rcases (ofString?_eq_some_iff text t).mp h with ⟨honce, hfill⟩
  rw [fill_marker_eq_iff] at hfill
  rw [hfill] at honce ⊢
  rw [Text.replace_of_once _ _ (Text.Braced.ne_nil braced_marker) _ _ honce, fill,
    String.toList_append, String.toList_append, List.append_assoc]

/-- Only the marker alone writes the template that shows values as they are. -/
theorem eq_bare_iff (text : String) (t : Template) (h : ofString? text = some t) :
    t = bare ↔ text = marker := by
  -- The marker alone parses to the template that adds nothing.
  have hbare : ofString? marker = some bare := by decide
  constructor
  · rintro rfl
    exact ((ofString?_eq_some_iff text bare).mp h).2
  · rintro rfl
    rw [hbare] at h
    exact (Option.some.inj h).symm

end Template

/-- The text of a custom type in a valid configuration writes a template. -/
theorem Config.Valid.exists_template (c : Config) (h : c.Valid) (identifier : String)
    (type : CustomType) (htype : c.customTypes.get? identifier = some type) :
    ∃ t, Template.ofString? type.template = some t := by
  have honce := (((Config.valid_iff_sound c).mp h).types identifier type htype).2.2
  exact Option.isSome_iff_exists.mp ((Template.isSome_ofString?_iff type.template).mpr honce)

/-- A custom type gives its target and the template that its text writes, also if its
    identifier is native. -/
theorem Argument.resolve_of_ofString? (types : Dict CustomType) (identifier name : String)
    (type : CustomType) (htype : types.get? identifier = some type) (t : Template)
    (ht : Template.ofString? type.template = some t) :
    resolve types name identifier = .ok ⟨name, type.target, t⟩ := by
  simp only [resolve, htype, ofCustomType, ht, Option.getD_some]

namespace Template

/-- A text writes a template exactly if the marker stands in it at one place, and then the
    two parts stand around the marker. Any two parts without the marker are written by what
    they stand around it. In a valid configuration each custom type gives arguments of its
    own target, also if its identifier is native. Their template is the one that its text
    writes, and shows every value as that text shows it in the place of the marker. -/
theorem ofString?_splices :
    (∀ text, ((∃ t, ofString? text = some t) ↔ Text.OccursOnce marker.toList text.toList) ∧
      ∀ t, ofString? text = some t → t.lead ++ marker ++ t.trail = text) ∧
    (∀ lead trail : String, ¬ marker.toList <:+: lead.toList → ¬ marker.toList <:+: trail.toList →
      ofString? (lead ++ marker ++ trail) = some ⟨lead, trail⟩) ∧
    ∀ c : Config, c.Valid → ∀ identifier type, c.customTypes.get? identifier = some type →
      ∃ t, ofString? type.template = some t ∧ (t = bare ↔ type.template = marker) ∧
        (∀ name, Argument.resolve c.customTypes name identifier = .ok ⟨name, type.target, t⟩) ∧
        ∀ value, (t.fill value).toList =
          Text.replace marker.toList value.toList type.template.toList := by
  refine ⟨fun text => ⟨?_, fun t ht => ?_⟩, fun lead trail hlead htrail => ?_, ?_⟩
  · rw [← Option.isSome_iff_exists]
    exact isSome_ofString?_iff text
  · exact ((ofString?_eq_some_iff text t).mp ht).2.symm
  · exact ofString?_fill_marker ⟨lead, trail⟩ hlead htrail
  · intro c hc identifier type htype
    -- Validation has checked the template of every custom type.
    rcases hc.exists_template c identifier type htype with ⟨t, ht⟩
    exact ⟨t, ht, eq_bare_iff type.template t ht,
      fun name => Argument.resolve_of_ofString? c.customTypes identifier name type htype t ht,
      toList_fill type.template t ht⟩

/-- Around the marker there may be parts of it, and a type may have a native identifier. -/
theorem ofString?_splices_int :
    ofString? "\x7b\x7bvar\x7dvar\x7d" = some ⟨"\x7b", "var\x7d"⟩ ∧
    ∃ t : Template, Argument.resolve
        (Dict.empty.insert "Int" ⟨"Long", "#\x7bvar\x7d!"⟩) "n" "Int" = .ok ⟨"n", "Long", t⟩ ∧
      (t.fill "\x7bvar\x7d").toList = "#\x7bvar\x7d!".toList := by
  have hall := ofString?_splices
  have hparts := hall.2.1 "\x7b" "var\x7d" (by decide) (by decide)
  let c : Config := { Config.default with
    customTypes := Dict.empty.insert "Int" ⟨"Long", "#\x7bvar\x7d!"⟩ }
  have hvalid : c.Valid := by decide +kernel
  -- The value holds the marker: it is put in, not searched again.
  rcases hall.2.2 c hvalid "Int" ⟨"Long", "#\x7bvar\x7d!"⟩ (by decide) with
    ⟨t, -, -, hresolve, hfill⟩
  refine ⟨hparts, t, hresolve "n", ?_⟩
  rw [hfill]
  decide +kernel

end Template

end Phrasebook
