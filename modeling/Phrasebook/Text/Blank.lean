import Phrasebook.Text.Ranges

/-!
# Blanks

The characters with the Unicode property White_Space, and the trimming of texts
by them. The class is wider than the four blanks of JSON: it holds the
non-breaking, the ideographic and other spaces and the line separators, but
neither the zero-width space nor the byte order mark.

## Main definitions

* `isBlank`: The property White_Space.
* `trim`: A text without blanks at its ends.

## Theorems

* `isBlank_of_isWhitespace`: Blanks of ASCII are blanks.
-/

namespace Phrasebook

namespace Text

/-- Whether a character has the property White_Space. -/
def isBlank (c : Char) : Bool :=
  covers [(0x9, 0xD), (0x20, 0x20), (0x85, 0x85), (0xA0, 0xA0), (0x1680, 0x1680),
    (0x2000, 0x200A), (0x2028, 0x2029), (0x202F, 0x202F), (0x205F, 0x205F),
    (0x3000, 0x3000)] c.toNat

/-- Drop the characters at both ends that satisfy `p`. -/
def trimBy (p : Char → Bool) (s : List Char) : List Char :=
  ((s.dropWhile p).reverse.dropWhile p).reverse

/-- Drop the blanks at both ends. -/
def trim (s : List Char) : List Char := trimBy isBlank s

/-- Every blank that the core library knows is one here. -/
theorem isBlank_of_isWhitespace {c : Char} (h : c.isWhitespace = true) : isBlank c = true := by
  simp only [Char.isWhitespace, Bool.or_eq_true, decide_eq_true_eq] at h
  rcases h with ((rfl | rfl) | rfl) | rfl <;> decide

end Text

end Phrasebook
