import Mathlib.Tactic.ByContra
import Phrasebook.Message.Phrase

/-!
# What a Phrase Depends On

Rendering a phrase is given a value for every variable there is, and `Phrase.asked`
lists those whose values are asked for. That the list is the right one has two sides. A
value that is not asked for makes no difference to the text, and one that is asked for
can be seen in it.

The second side holds because a single value is changed at a time. The pieces of a text
stand side by side with nothing between them, so two values can change and make up for
each other: where `x` and `y` follow one another, the values "1" and "23" read like "12"
and "3". If no value becomes longer, though, no piece of the text does, and the text can
only stay as it is if each piece keeps its length. The pieces then stand where they
stood, and each is what it was (`Phrase.eq_of_render_eq`).

So the variables that are asked for are exactly those by which rendering can be changed
(`Phrase.mem_asked_iff`).

## Main definitions

* `Phrase.DependsOn`: Rendering depends on each of some variables, and on no others.

## Theorems

* `Phrase.render_congr`: Only values that are asked for matter.
* `Phrase.eq_of_render_eq`: Values that are not longer are seen in the text.
* `Phrase.render_eq_iff_of_agree`: A single value is seen in the text.
* `Phrase.mem_asked_iff`: The variables that are asked for, by rendering alone.
* `Phrase.dependsOn_iff`: A phrase depends on what it asks for.
-/

namespace Phrasebook

namespace Template

/-- A value can be read off its template. -/
theorem fill_inj (t : Template) (value value' : String) :
    t.fill value = t.fill value' ↔ value = value' := by
  rw [fill, fill, String.append_left_inj, String.append_right_inj]

/-- A template adds as much to each value. -/
theorem length_fill (t : Template) (value : String) :
    (t.fill value).length = t.lead.length + value.length + t.trail.length := by
  rw [fill, String.length_append, String.length_append]

end Template

namespace Piece

variable (f g : String → String) (p : Piece)

theorem render_congr (h : ∀ v, p.asked? = some v → f v = g v) : p.render f = p.render g := by
  cases p with
  | literal text => rfl
  | slot name template => rw [render, render, h name rfl]

theorem length_render_le (h : ∀ v, p.asked? = some v → (f v).length ≤ (g v).length) :
    (p.render f).length ≤ (p.render g).length := by
  cases p with
  | literal text => exact Nat.le_refl _
  | slot name template =>
      have hname := h name rfl
      rw [render, render, Template.length_fill, Template.length_fill]
      omega

theorem eq_of_render_eq (v : String) (hv : p.asked? = some v) (h : p.render f = p.render g) :
    f v = g v := by
  cases p with
  | literal text => cases hv
  | slot name template =>
      cases hv
      exact (template.fill_inj _ _).mp h

end Piece

namespace Phrase

theorem render_cons (piece : Piece) (pieces : List Piece) (valueOf : String → String) :
    render ⟨piece :: pieces⟩ valueOf = piece.render valueOf ++ render ⟨pieces⟩ valueOf := by
  rw [render, List.map_cons, String.join_cons]
  rfl

theorem mem_asked_cons (piece : Piece) (pieces : List Piece) (v : String) :
    v ∈ asked ⟨piece :: pieces⟩ ↔ piece.asked? = some v ∨ v ∈ asked ⟨pieces⟩ := by
  simp only [asked, List.mem_filterMap, List.mem_cons, exists_eq_or_imp]

section Values

variable (f g : String → String) (p : Phrase)

/-- Values that are not asked for make no difference. -/
theorem render_congr (h : ∀ v ∈ p.asked, f v = g v) : p.render f = p.render g := by
  have hpieces : p.pieces.map (Piece.render f) = p.pieces.map (Piece.render g) := by
    refine List.map_congr_left (fun piece hpiece => piece.render_congr f g (fun v hv => ?_))
    exact h v (List.mem_filterMap.mpr ⟨piece, hpiece, hv⟩)
  rw [render, hpieces, render]

theorem length_render_le (h : ∀ v ∈ p.asked, (f v).length ≤ (g v).length) :
    (p.render f).length ≤ (p.render g).length := by
  cases p with
  | mk pieces =>
      induction pieces with
      | nil => exact Nat.le_refl _
      | cons piece pieces ih =>
          have hpiece := piece.length_render_le f g
            (fun v hv => h v ((mem_asked_cons piece pieces v).mpr (Or.inl hv)))
          have hpieces := ih (fun v hv => h v ((mem_asked_cons piece pieces v).mpr (Or.inr hv)))
          rw [render_cons, render_cons, String.length_append, String.length_append]
          omega

/-- Values that are not longer than others give another text, unless all that are asked
    for are the same. -/
theorem eq_of_render_eq (hle : ∀ v ∈ p.asked, (f v).length ≤ (g v).length)
    (h : p.render f = p.render g) : ∀ v ∈ p.asked, f v = g v := by
  cases p with
  | mk pieces =>
      induction pieces with
      | nil => exact fun v hv => absurd hv List.not_mem_nil
      | cons piece pieces ih =>
          have hfirst : ∀ v, piece.asked? = some v → (f v).length ≤ (g v).length :=
            fun v hv => hle v ((mem_asked_cons piece pieces v).mpr (Or.inl hv))
          have hrest : ∀ v ∈ asked ⟨pieces⟩, (f v).length ≤ (g v).length :=
            fun v hv => hle v ((mem_asked_cons piece pieces v).mpr (Or.inr hv))
          rw [render_cons, render_cons] at h
          -- Neither the first piece nor the rest can be shorter: the other one would have
          -- to be longer.
          have hlength : (piece.render f).length = (piece.render g).length := by
            have hpiece := piece.length_render_le f g hfirst
            have hpieces := length_render_le f g ⟨pieces⟩ hrest
            have hsum := congrArg String.length h
            rw [String.length_append, String.length_append] at hsum
            omega
          have hlists := congrArg String.toList h
          rw [String.toList_append, String.toList_append] at hlists
          rcases List.append_inj hlists (by rwa [String.length_toList, String.length_toList])
            with ⟨hpiece, hpieces⟩
          intro v hv
          rcases (mem_asked_cons piece pieces v).mp hv with hv | hv
          · exact piece.eq_of_render_eq f g v hv (String.toList_inj.mp hpiece)
          · exact ih hrest (String.toList_inj.mp hpieces) v hv

/-- If the value of a single variable is changed, which is asked for, then so is the
    text. -/
theorem render_eq_iff_of_agree (v : String) (hv : v ∈ p.asked) (h : ∀ w, w ≠ v → f w = g w) :
    p.render f = p.render g ↔ f v = g v := by
  have hall : ∀ R : String → String → Prop, (∀ value, R value value) → R (f v) (g v) →
      ∀ w, R (f w) (g w) := by
    intro R hrefl hR w
    by_cases hw : w = v
    · exact hw ▸ hR
    · exact h w hw ▸ hrefl (f w)
  constructor
  · intro hsame
    -- Either of the two values may be the longer one.
    rcases Nat.le_total (f v).length (g v).length with hle | hle
    · have hlengths := hall (fun x y => x.length ≤ y.length) (fun _ => Nat.le_refl _) hle
      exact eq_of_render_eq f g p (fun w _ => hlengths w) hsame v hv
    · have hlengths := hall (fun x y => y.length ≤ x.length) (fun _ => Nat.le_refl _) hle
      exact (eq_of_render_eq g f p (fun w _ => hlengths w) hsame.symm v hv).symm
  · intro hsame
    exact render_congr f g p (fun w _ => hall (· = ·) (fun _ => rfl) hsame w)

end Values

theorem exists_agree_and_ne (v : String) :
    ∃ f g : String → String, (∀ w, w ≠ v → f w = g w) ∧ f v ≠ g v := by
  refine ⟨fun _ => "", fun w => if w = v then "x" else "", fun w hw => (if_neg hw).symm, ?_⟩
  simp

/-- A variable is asked for exactly if the text can be changed by its value alone. -/
theorem mem_asked_iff (p : Phrase) (v : String) :
    v ∈ p.asked ↔ ∃ f g, (∀ w, w ≠ v → f w = g w) ∧ p.render f ≠ p.render g := by
  constructor
  · intro hv
    rcases exists_agree_and_ne v with ⟨f, g, hagree, hne⟩
    exact ⟨f, g, hagree, fun hsame => hne ((render_eq_iff_of_agree f g p v hv hagree).mp hsame)⟩
  · rintro ⟨f, g, hagree, hne⟩
    by_contra hv
    exact hne (render_congr f g p (fun w hw => hagree w (fun hwv => hv (hwv ▸ hw))))

/-- Rendering depends on the values of some variables: on no others, and on each of
    them even if the rest stays as it is. -/
structure DependsOn (p : Phrase) (names : List String) : Prop where
  only : ∀ f g, (∀ v ∈ names, f v = g v) → p.render f = p.render g
  each : ∀ v ∈ names, ∀ f g, (∀ w, w ≠ v → f w = g w) → f v ≠ g v → p.render f ≠ p.render g

/-- A phrase depends on the variables that it asks for. -/
theorem dependsOn_iff (p : Phrase) (names : List String) :
    p.DependsOn names ↔ ∀ v, v ∈ p.asked ↔ v ∈ names := by
  constructor
  · intro h v
    rw [mem_asked_iff]
    constructor
    · rintro ⟨f, g, hagree, hne⟩
      by_contra hv
      exact hne (h.only f g (fun w hw => hagree w (fun hwv => hv (hwv ▸ hw))))
    · intro hv
      rcases exists_agree_and_ne v with ⟨f, g, hagree, hne⟩
      exact ⟨f, g, hagree, h.each v hv f g hagree hne⟩
  · intro h
    constructor
    · intro f g hagree
      exact render_congr f g p (fun v hv => hagree v ((h v).mp hv))
    · intro v hv f g hagree hne hsame
      exact hne ((render_eq_iff_of_agree f g p v ((h v).mpr hv) hagree).mp hsame)

end Phrase

end Phrasebook
