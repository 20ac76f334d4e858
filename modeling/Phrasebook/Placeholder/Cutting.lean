import Phrasebook.Placeholder.Token

/-!
# Cutting a Text at Its Tokens

A text is a sequence of gaps and tokens. The cutting is found from the left: a
token that starts at the front is cut off, otherwise one character goes into the
gap. A brace that starts no token is a character like any other.

## Main definitions

* `Cutting`: Gaps and tokens in turn, and the text behind the last token.
* `Cutting.ofChars`: The cutting of a text.
* `Occurrence`: A token with all text on either side of it.
* `Occurrence.isWrapped`: The token stands between another pair of braces.

## Theorems

* `Cutting.chars_addToken`, `Cutting.chars_addChar`: What goes in front of a
  cutting goes in front of its text.
* `Cutting.chars_ofChars`: The cutting of a text makes up the text.
-/

namespace Phrasebook

/-- A text as gaps and tokens in turn. -/
structure Cutting where
  /-- Each token with the gap in front of it. -/
  cuts : List (List Char × Token)
  /-- The text behind the last token. -/
  tail : List Char
  deriving DecidableEq

namespace Cutting

/-- The characters of gaps and tokens in turn. -/
def charsOf (cuts : List (List Char × Token)) : List Char :=
  cuts.flatMap (fun (gap, token) => gap ++ token.spelling)

/-- The text that a cutting cuts. -/
def chars (c : Cutting) : List Char := charsOf c.cuts ++ c.tail

/-- The cutting with a token in front of it. -/
def addToken (t : Token) (c : Cutting) : Cutting := ⟨([], t) :: c.cuts, c.tail⟩

/-- The cutting with a character in front of its first gap. -/
def addChar (x : Char) : Cutting → Cutting
  | ⟨[], tail⟩ => ⟨[], x :: tail⟩
  | ⟨(gap, token) :: cuts, tail⟩ => ⟨(x :: gap, token) :: cuts, tail⟩

/-- The cutting of a text. -/
def ofChars (s : List Char) : Cutting :=
  match _h : Token.read? s with
  | some (token, rest) => addToken token (ofChars rest)
  | none =>
    match s with
    | [] => ⟨[], []⟩
    | c :: cs => addChar c (ofChars cs)
termination_by s.length
decreasing_by
  · exact Token.length_lt_of_read? _h
  · exact Nat.lt_succ_self _

/-- A token in front of a cutting stands in front of its text. -/
theorem chars_addToken {t : Token} {c : Cutting} :
    (addToken t c).chars = t.spelling ++ c.chars := by
  simp [addToken, chars, charsOf]

/-- A character in front of a cutting stands in front of its text. -/
theorem chars_addChar {x : Char} {c : Cutting} : (addChar x c).chars = x :: c.chars := by
  obtain ⟨cuts, tail⟩ := c
  cases cuts with
  | nil => rfl
  | cons cut cuts => simp [addChar, chars, charsOf]

/-- The cutting of a text makes up the text: nothing is lost. -/
theorem chars_ofChars {s : List Char} : (ofChars s).chars = s := by
  fun_induction ofChars s with
  | case1 s token rest h ih =>
    rw [chars_addToken, ih, Token.spelling_append_of_read? h]
  | case2 => rfl
  | case3 c cs h ih => rw [chars_addChar, ih]

end Cutting

/-- A token in a text, with all text on either side of it. -/
structure Occurrence where
  /-- The text in front of the token, from its last character to its first. -/
  behind : List Char
  token : Token
  ahead : List Char
  deriving DecidableEq

namespace Occurrence

/-- Whether a brace is the first character of a text that is no identifier
    character. -/
def reaches (brace : Char) (text : List Char) : Bool :=
  (text.dropWhile Text.isIdentifierChar).head? == some brace

/-- Whether a token stands between another pair of braces, from which only
    identifier characters separate it. -/
def isWrapped (o : Occurrence) : Bool := reaches '\x7b' o.behind && reaches '\x7d' o.ahead

end Occurrence

namespace Cutting

/-- The tokens of some cuts, when `behind` is the text in front of them from its
    last character to its first, and `ahead` the text that starts with them. -/
def occurrencesFrom :
    (behind ahead : List Char) → List (List Char × Token) → List Occurrence
  | _, _, [] => []
  | behind, ahead, (gap, token) :: cuts =>
    let behind := gap.reverse ++ behind
    let ahead := ahead.drop (gap.length + token.spelling.length)
    ⟨behind, token, ahead⟩ :: occurrencesFrom (token.spelling.reverse ++ behind) ahead cuts

/-- The tokens of a cutting, in order. -/
def occurrences (c : Cutting) : List Occurrence := occurrencesFrom [] c.chars c.cuts

end Cutting

end Phrasebook
