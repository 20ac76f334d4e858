import Mathlib.Tactic.ByContra
import Phrasebook.Text.Word

/-!
# Two Classes of Word Characters

Names in a placeholder and identifiers of a configuration are made of different
characters. Here is what the two classes share, and what each has for itself. They share
the alphabetic characters, the decimal digits and `_`, and nothing else: what a mark, a
connector or a joiner has in the one class, and a number that is no digit in the other.

The classes are unions of tables, so that two of them have nothing in common is a matter
of their ranges. A range of the one table lies below or above every range of the other,
which is decided once for a pair of tables and holds of every character from then on.

## Main definitions

* `Text.apart`: No range of a table meets one of another.
* `Text.within`: Every range of a table lies in one of another.
* `Text.isPlainChar`: The characters that both classes have.

## Theorems

* `Text.isPlainChar_iff`: A character is plain exactly if it is in both classes.
* `Text.isWordChar_only_iff`: The characters of names in a placeholder alone.
-/

namespace Phrasebook

namespace Text

/-- No range of a table meets a range of another. -/
def apart (left right : List (Nat × Nat)) : Bool :=
  left.all (fun r => right.all (fun s => Nat.blt r.2 s.1 || Nat.blt s.2 r.1))

/-- Every range of a table lies in a range of another. -/
def within (inner outer : List (Nat × Nat)) : Bool :=
  inner.all (fun r => outer.any (fun s => Nat.ble s.1 r.1 && Nat.ble r.2 s.2))

theorem covers_of_apart (left right : List (Nat × Nat)) (floor floor' : Nat)
    (hleft : ascends floor left = true) (hright : ascends floor' right = true)
    (h : apart left right = true) (code : Nat) (hcode : covers left code = true) :
    covers right code = false := by
  rw [Bool.eq_false_iff]
  intro hcode'
  rcases (covers_iff hleft).mp hcode with ⟨r, hr, hlow, hhigh⟩
  rcases (covers_iff hright).mp hcode' with ⟨s, hs, hlow', hhigh'⟩
  -- One of the two ranges ends before the other begins.
  have hapart := List.all_eq_true.mp (List.all_eq_true.mp h r hr) s hs
  rw [Bool.or_eq_true, Nat.blt_eq, Nat.blt_eq] at hapart
  omega

theorem covers_of_within (inner outer : List (Nat × Nat)) (floor floor' : Nat)
    (hinner : ascends floor inner = true) (houter : ascends floor' outer = true)
    (h : within inner outer = true) (code : Nat) (hcode : covers inner code = true) :
    covers outer code = true := by
  rcases (covers_iff hinner).mp hcode with ⟨r, hr, hlow, hhigh⟩
  rcases List.any_eq_true.mp (List.all_eq_true.mp h r hr) with ⟨s, hs, hholds⟩
  rw [Bool.and_eq_true, Nat.ble_eq, Nat.ble_eq] at hholds
  exact (covers_iff houter).mpr ⟨s, hs, by omega, by omega⟩

/-- A decimal digit is a number. -/
theorem isNumber_of_isDecimalDigit (c : Char) (h : isDecimalDigit c = true) :
    isNumber c = true :=
  covers_of_within decimalDigitRanges numberRanges 0 0 decimalDigitRanges_ascend
    numberRanges_ascend (by decide +kernel) c.toNat h

/-- A mark is no number. -/
theorem not_isNumber_of_isMark (c : Char) (h : isMark c = true) : isNumber c = false :=
  covers_of_apart markRanges numberRanges 0 0 markRanges_ascend numberRanges_ascend
    (by decide +kernel) c.toNat h

/-- A mark is none of the alphabetic characters that were added. -/
theorem not_isAddedAlphabetic_of_isMark (c : Char) (h : isMark c = true) :
    isAddedAlphabetic c = false :=
  covers_of_apart markRanges addedAlphabeticRanges 0 0 markRanges_ascend
    addedAlphabeticRanges_ascend (by decide +kernel) c.toNat h

/-- A connector is neither alphabetic nor a number. -/
theorem not_isAlphanumeric_of_isConnector (c : Char) (h : isConnector c = true) :
    isAlphanumeric c = false := by
  unfold isConnector at h
  have halphabetic : isAlphabetic c = false :=
    covers_of_apart _ alphabeticRanges 0 0 (by decide) alphabeticRanges_ascend
      (by decide +kernel) c.toNat h
  have hadded : isAddedAlphabetic c = false :=
    covers_of_apart _ addedAlphabeticRanges 0 0 (by decide) addedAlphabeticRanges_ascend
      (by decide +kernel) c.toNat h
  have hnumber : isNumber c = false :=
    covers_of_apart _ numberRanges 0 0 (by decide) numberRanges_ascend (by decide +kernel)
      c.toNat h
  rw [isAlphanumeric, halphabetic, hadded, hnumber]
  rfl

theorem not_isAlphanumeric_of_isJoiner (c : Char) (h : isJoiner c = true) :
    isAlphanumeric c = false := by
  rw [isJoiner, Bool.or_eq_true, beq_iff_eq, beq_iff_eq] at h
  rcases h with rfl | rfl
  · decide +kernel
  · decide +kernel

theorem isConnector_underscore : isConnector '_' = true := by decide

/-- The characters that stand both in names of a placeholder and in identifiers. -/
def isPlainChar (c : Char) : Bool := isAlphabetic c || isDecimalDigit c || c == '_'

theorem isWordChar_iff (c : Char) :
    isWordChar c = true ↔ isAlphabetic c = true ∨ isMark c = true ∨ isDecimalDigit c = true ∨
      isConnector c = true ∨ isJoiner c = true := by
  simp only [isWordChar, Bool.or_eq_true, or_assoc]

theorem isIdentifierChar_iff (c : Char) :
    isIdentifierChar c = true ↔ isAlphabetic c = true ∨ isAddedAlphabetic c = true ∨
      isNumber c = true ∨ c = '_' := by
  simp only [isIdentifierChar, isAlphanumeric, Bool.or_eq_true, beq_iff_eq, or_assoc]

theorem isPlainChar_iff_cases (c : Char) :
    isPlainChar c = true ↔ isAlphabetic c = true ∨ isDecimalDigit c = true ∨ c = '_' := by
  simp only [isPlainChar, Bool.or_eq_true, beq_iff_eq, or_assoc]

theorem isWordChar_of_isPlainChar (c : Char) (h : isPlainChar c = true) :
    isWordChar c = true := by
  rw [isWordChar_iff]
  rcases (isPlainChar_iff_cases c).mp h with halphabetic | hdigit | rfl
  · exact Or.inl halphabetic
  · exact Or.inr (Or.inr (Or.inl hdigit))
  · exact Or.inr (Or.inr (Or.inr (Or.inl isConnector_underscore)))

theorem isIdentifierChar_of_isPlainChar (c : Char) (h : isPlainChar c = true) :
    isIdentifierChar c = true := by
  rw [isIdentifierChar_iff]
  rcases (isPlainChar_iff_cases c).mp h with halphabetic | hdigit | hline
  · exact Or.inl halphabetic
  · exact Or.inr (Or.inr (Or.inl (isNumber_of_isDecimalDigit c hdigit)))
  · exact Or.inr (Or.inr (Or.inr hline))

/-- A character is plain exactly if it is in both classes. -/
theorem isPlainChar_iff (c : Char) :
    isPlainChar c = true ↔ isWordChar c = true ∧ isIdentifierChar c = true := by
  constructor
  · intro h
    exact ⟨isWordChar_of_isPlainChar c h, isIdentifierChar_of_isPlainChar c h⟩
  · rintro ⟨hword, hidentifier⟩
    by_contra hplain
    rw [isPlainChar_iff_cases] at hplain
    -- What is left of an identifier without plain characters is alphanumeric.
    have hleft : isAddedAlphabetic c = true ∨ isNumber c = true := by
      rcases (isIdentifierChar_iff c).mp hidentifier with h | h | h | h
      · exact absurd (Or.inl h) hplain
      · exact Or.inl h
      · exact Or.inr h
      · exact absurd (Or.inr (Or.inr h)) hplain
    have halphanumeric : isAlphanumeric c = true := by
      simp only [isAlphanumeric, Bool.or_eq_true]
      rcases hleft with h | h
      · exact Or.inl (Or.inr h)
      · exact Or.inr h
    rcases (isWordChar_iff c).mp hword with h | h | h | h | h
    · exact hplain (Or.inl h)
    · rw [not_isAddedAlphabetic_of_isMark c h, not_isNumber_of_isMark c h] at hleft
      simp at hleft
    · exact hplain (Or.inr (Or.inl h))
    · rw [not_isAlphanumeric_of_isConnector c h] at halphanumeric
      cases halphanumeric
    · rw [not_isAlphanumeric_of_isJoiner c h] at halphanumeric
      cases halphanumeric

/-- The characters of names in a placeholder that no identifier has are marks, connectors
    and joiners. -/
theorem isWordChar_only_iff (c : Char) :
    isWordChar c = true ∧ isIdentifierChar c = false ↔
      isPlainChar c = false ∧ (isMark c = true ∨ isConnector c = true ∨ isJoiner c = true) := by
  have hplain := isPlainChar_iff c
  have hcases := isPlainChar_iff_cases c
  have hword := isWordChar_iff c
  constructor
  · rintro ⟨h, hidentifier⟩
    -- A plain character is an identifier character, so this one is not plain.
    have hnot : isPlainChar c = false := by
      rw [Bool.eq_false_iff, ne_eq, hplain, hidentifier]
      rintro ⟨-, h⟩
      cases h
    refine ⟨hnot, ?_⟩
    rw [hnot] at hcases
    rcases hword.mp h with h | h | h | h
    · exact absurd (hcases.mpr (Or.inl h)) Bool.false_ne_true
    · exact Or.inl h
    · exact absurd (hcases.mpr (Or.inr (Or.inl h))) Bool.false_ne_true
    · exact Or.inr h
  · rintro ⟨hnot, h⟩
    have hin : isWordChar c = true := by
      rw [hword]
      rcases h with h | h
      · exact Or.inr (Or.inl h)
      · exact Or.inr (Or.inr (Or.inr h))
    refine ⟨hin, ?_⟩
    rw [hnot, hin] at hplain
    rw [Bool.eq_false_iff]
    intro hidentifier
    exact Bool.false_ne_true (hplain.mpr ⟨rfl, hidentifier⟩)

end Text

end Phrasebook
