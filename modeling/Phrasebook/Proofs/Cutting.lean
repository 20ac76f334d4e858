import Phrasebook.Placeholder.Cutting

/-!
# The One Way to Cut a Text

What it means that the tokens of a text have been found. A cutting decomposes a
text if it makes up the text, every token in it is well-formed, and no token is
left in a gap or in the tail. Nothing in that says in which order the text was
gone through, or that a token was preferred to another. It need not, because there
is only one such cutting.

The reason is that tokens do not overlap. A token starts with an opening brace and
has no other, so a token that starts inside another one would need a brace that is
not there. The cutting that is found from the left is therefore the only one, and
`decomposes_iff` says so. Braces that belong to no token stay in the gaps.

## Main definitions

* `TokenFree`: No token stands anywhere in a text.
* `Cutting.Decomposes`: A cutting makes up a text and misses no token.
* `tokensOf`: The tokens of a text.

## Theorems

* `Token.openBrace_not_mem_tail`: Inside a token there is no opening brace.
* `TokenFree.of_cons`, `tokenFree_cons`: Characters in front of a text.
* `Cutting.decomposes_cons_iff`: Decomposing a text from the front.
* `Cutting.eq_nil_of_spelling_append`: No gap stands in front of a token that a
  text starts with.
* `Cutting.exists_addToken_of_decomposes`, `Cutting.exists_addChar_of_decomposes`:
  What decomposes a text is found from its front.
* `Cutting.decomposes_ofChars`, `Cutting.eq_ofChars_of_decomposes`: The cutting of
  a text decomposes it, and no other does.
* `Cutting.decomposes_iff`: The two together.
* `Cutting.tokens_occurrences`: The occurrences are those of the tokens.
-/

namespace Phrasebook

/-- No token stands anywhere in a text. -/
def TokenFree (s : List Char) : Prop := ∀ t : Token, t.WellFormed → ¬t.spelling <:+: s

-- Name and identifier are word characters, and the signs between are no braces.
theorem Token.openBrace_not_mem_tail (t : Token) (h : t.WellFormed) :
    '\x7b' ∉ t.spelling.tail := by
  have hword : ∀ c, Text.isWordChar c = true → c ≠ '\x7b' := by
    intro c hc heq
    rw [heq, Text.not_isWordChar_openBrace] at hc
    cases hc
  intro hmem
  unfold spelling at hmem
  rw [List.tail_cons, List.mem_append, List.mem_append] at hmem
  -- Behind its opening brace a token has word characters, a colon and a closing brace.
  rcases hmem with (hname | htype) | hclose
  · exact hword _ (h.2.1 _ hname) rfl
  · cases htoken : t.type with
    | none =>
        rw [htoken] at htype
        cases htype
    | some type =>
        rw [htoken] at htype
        rcases List.mem_cons.mp htype with hcolon | htype
        · exact absurd hcolon (by decide)
        · exact hword _ (h.2.2 type htoken _ htype) rfl
  · exact absurd (List.mem_singleton.mp hclose) (by decide)

theorem tokenFree_nil : TokenFree [] := by
  intro t _ hwithin
  exact List.cons_ne_nil _ _ (List.infix_nil.mp hwithin)

theorem TokenFree.of_cons {x : Char} {s : List Char} (h : TokenFree (x :: s)) : TokenFree s :=
  fun t ht hwithin => h t ht (hwithin.trans (List.suffix_cons x s).isInfix)

/-- A character in front makes no token unless the text behind it reads as one. -/
theorem tokenFree_cons (x : Char) (s rest : List Char)
    (hread : Token.read? (x :: (s ++ rest)) = none) (h : TokenFree s) : TokenFree (x :: s) := by
  intro t ht hwithin
  rcases List.infix_cons_iff.mp hwithin with hfront | hwithin
  · rcases hfront with ⟨behind, hbehind⟩
    have hsome : Token.read? (x :: (s ++ rest)) = some (t, behind ++ rest) := by
      refine Token.read?_eq_some_iff.mpr ⟨ht, ?_⟩
      rw [← List.append_assoc, hbehind]
      rfl
    rw [hread] at hsome
    cases hsome
  · exact h t ht hwithin

namespace Cutting

/-- A cutting makes up a text, its tokens are well-formed, and between and behind
    them there is no token. -/
structure Decomposes (c : Cutting) (s : List Char) : Prop where
  chars : c.chars = s
  tokens : ∀ cut ∈ c.cuts, cut.2.WellFormed
  gaps : ∀ cut ∈ c.cuts, TokenFree cut.1
  tail : TokenFree c.tail

theorem chars_cons (gap : List Char) (t : Token) (cuts : List (List Char × Token))
    (tail : List Char) :
    chars ⟨(gap, t) :: cuts, tail⟩ = gap ++ (t.spelling ++ chars ⟨cuts, tail⟩) := by
  unfold chars charsOf
  rw [List.flatMap_cons, List.append_assoc, List.append_assoc]

theorem decomposes_nil_iff (tail s : List Char) :
    Decomposes ⟨[], tail⟩ s ↔ tail = s ∧ TokenFree tail := by
  constructor
  · intro h
    exact ⟨h.chars, h.tail⟩
  · rintro ⟨hchars, hfree⟩
    exact ⟨hchars, fun cut hcut => absurd hcut List.not_mem_nil,
      fun cut hcut => absurd hcut List.not_mem_nil, hfree⟩

/-- A cutting with a first gap and token decomposes a text exactly if what follows
    decomposes the rest of it. -/
theorem decomposes_cons_iff (gap : List Char) (t : Token) (cuts : List (List Char × Token))
    (tail s : List Char) :
    Decomposes ⟨(gap, t) :: cuts, tail⟩ s ↔ t.WellFormed ∧ TokenFree gap ∧
      ∃ rest, s = gap ++ (t.spelling ++ rest) ∧ Decomposes ⟨cuts, tail⟩ rest := by
  -- What is asked of all cuts is asked of the first and of the others.
  constructor
  · intro h
    refine ⟨h.tokens _ List.mem_cons_self, h.gaps _ List.mem_cons_self, chars ⟨cuts, tail⟩,
      by rw [← h.chars, chars_cons], rfl, ?_, ?_, h.tail⟩
    · intro cut hcut
      exact h.tokens cut (List.mem_cons_of_mem _ hcut)
    · intro cut hcut
      exact h.gaps cut (List.mem_cons_of_mem _ hcut)
  · rintro ⟨ht, hgap, rest, rfl, h⟩
    refine ⟨by rw [chars_cons, h.chars], ?_, ?_, h.tail⟩
    · intro cut hcut
      rcases List.mem_cons.mp hcut with rfl | hcut
      · exact ht
      · exact h.tokens cut hcut
    · intro cut hcut
      rcases List.mem_cons.mp hcut with rfl | hcut
      · exact hgap
      · exact h.gaps cut hcut

theorem decomposes_addToken (t : Token) (c : Cutting) (s : List Char) (ht : t.WellFormed)
    (h : c.Decomposes s) : (addToken t c).Decomposes (t.spelling ++ s) :=
  (decomposes_cons_iff [] t c.cuts c.tail _).mpr ⟨ht, tokenFree_nil, s, rfl, h⟩

theorem decomposes_addChar (x : Char) (c : Cutting) (s : List Char)
    (hread : Token.read? (x :: s) = none) (h : c.Decomposes s) :
    (addChar x c).Decomposes (x :: s) := by
  rcases c with ⟨cuts, tail⟩
  -- The character goes into the first gap, or into the tail if there is none.
  cases cuts with
  | nil =>
      rcases (decomposes_nil_iff tail s).mp h with ⟨rfl, hfree⟩
      refine (decomposes_nil_iff _ _).mpr ⟨rfl, tokenFree_cons x tail [] ?_ hfree⟩
      rw [List.append_nil, hread]
  | cons first cuts =>
      rcases (decomposes_cons_iff _ _ _ _ _).mp h with ⟨ht, hgap, rest, rfl, hrest⟩
      exact (decomposes_cons_iff _ _ _ _ _).mpr
        ⟨ht, tokenFree_cons x first.1 _ hread hgap, rest, rfl, hrest⟩

/-- The cutting of a text decomposes it. -/
theorem decomposes_ofChars (s : List Char) : (ofChars s).Decomposes s := by
  -- The induction is on the way the text is gone through.
  fun_induction ofChars s with
  | case1 s t rest hread ih =>
      rcases Token.read?_eq_some_iff.mp hread with ⟨ht, hs⟩
      rw [hs]
      exact decomposes_addToken t _ rest ht ih
  | case2 => exact (decomposes_nil_iff _ _).mpr ⟨rfl, tokenFree_nil⟩
  | case3 x xs hread ih => exact decomposes_addChar x _ xs hread ih

/-- A gap in front of the first token is empty if the text starts with a token: the
    gap cannot hold that token, and the other token cannot start inside it. -/
theorem eq_nil_of_spelling_append (t t' : Token) (ht : t.WellFormed)
    (gap rest rest' : List Char) (hgap : TokenFree gap)
    (h : t.spelling ++ rest = gap ++ (t'.spelling ++ rest')) : gap = [] := by
  rcases List.append_eq_append_iff.mp h with ⟨behind, hbehind, -⟩ | ⟨inside, hinside, hrest⟩
  · exact absurd ⟨[], behind, hbehind.symm⟩ (hgap t ht)
  · cases inside with
    | nil =>
        rw [List.append_nil] at hinside
        exact absurd (hinside ▸ List.infix_rfl) (hgap t ht)
    | cons brace inside =>
        -- What is inside both tokens starts with the opening brace of the second.
        have hbrace : '\x7b' = brace := (List.cons.inj hrest).1
        cases gap with
        | nil => rfl
        | cons first gap =>
            have htail : t.spelling.tail = gap ++ brace :: inside := by
              rw [hinside]
              rfl
            refine absurd ?_ (Token.openBrace_not_mem_tail t ht)
            rw [htail, hbrace]
            exact List.mem_append_right gap List.mem_cons_self

/-- What decomposes a text that starts with a token has that token in front. -/
theorem exists_addToken_of_decomposes (t : Token) (rest : List Char) (c : Cutting)
    (ht : t.WellFormed) (h : c.Decomposes (t.spelling ++ rest)) :
    ∃ c', c = addToken t c' ∧ c'.Decomposes rest := by
  rcases c with ⟨cuts, tail⟩
  cases cuts with
  | nil =>
      -- Without a cut the token at the front would be missed.
      rcases (decomposes_nil_iff tail _).mp h with ⟨rfl, hfree⟩
      exact absurd ⟨[], rest, rfl⟩ (hfree t ht)
  | cons first cuts =>
      rcases first with ⟨gap, t'⟩
      rcases (decomposes_cons_iff _ _ _ _ _).mp h with ⟨ht', hgap, rest', hs, hrest⟩
      have hnil := eq_nil_of_spelling_append t t' ht gap rest rest' hgap hs
      subst hnil
      -- Both tokens are read at the front, so they are one.
      have hread : Token.read? (t.spelling ++ rest) = some (t, rest) :=
        Token.read?_spelling_append ht
      rw [hs, List.nil_append, Token.read?_spelling_append ht'] at hread
      cases hread
      exact ⟨⟨cuts, tail⟩, rfl, hrest⟩

/-- What decomposes a text that starts with no token has the first character in its
    first gap, or in the tail. -/
theorem exists_addChar_of_decomposes (x : Char) (xs : List Char) (c : Cutting)
    (hread : Token.read? (x :: xs) = none) (h : c.Decomposes (x :: xs)) :
    ∃ c', c = addChar x c' ∧ c'.Decomposes xs := by
  rcases c with ⟨cuts, tail⟩
  cases cuts with
  | nil =>
      rcases (decomposes_nil_iff tail (x :: xs)).mp h with ⟨rfl, hfree⟩
      exact ⟨⟨[], xs⟩, rfl, (decomposes_nil_iff xs xs).mpr ⟨rfl, hfree.of_cons⟩⟩
  | cons first cuts =>
      rcases first with ⟨gap, t⟩
      rcases (decomposes_cons_iff _ _ _ _ _).mp h with ⟨ht, hgap, rest, hs, hrest⟩
      cases gap with
      | nil =>
          -- A token at the front would have been read.
          have hread' := Token.read?_eq_some_iff.mpr ⟨ht, hs⟩
          rw [hread] at hread'
          cases hread'
      | cons y gap =>
          rcases List.cons.inj hs with ⟨rfl, hxs⟩
          exact ⟨⟨(gap, t) :: cuts, tail⟩, rfl,
            (decomposes_cons_iff _ _ _ _ _).mpr ⟨ht, hgap.of_cons, rest, hxs, hrest⟩⟩

theorem eq_of_decomposes_nil (c : Cutting) (h : c.Decomposes []) : c = ⟨[], []⟩ := by
  rcases c with ⟨cuts, tail⟩
  cases cuts with
  | nil =>
      rcases (decomposes_nil_iff tail []).mp h with ⟨rfl, -⟩
      rfl
  | cons first cuts =>
      rcases (decomposes_cons_iff _ _ _ _ _).mp h with ⟨-, -, rest, hs, -⟩
      have hempty := (List.append_eq_nil_iff.mp hs.symm).2
      exact absurd hempty (List.cons_ne_nil _ _)

/-- No other cutting decomposes a text. -/
theorem eq_ofChars_of_decomposes (s : List Char) (c : Cutting) (h : c.Decomposes s) :
    c = ofChars s := by
  fun_induction ofChars s generalizing c with
  | case1 s t rest hread ih =>
      rcases Token.read?_eq_some_iff.mp hread with ⟨ht, hs⟩
      rw [hs] at h
      rcases exists_addToken_of_decomposes t rest c ht h with ⟨c', hc, hrest⟩
      rw [hc, ih c' hrest]
  | case2 => exact eq_of_decomposes_nil c h
  | case3 x xs hread ih =>
      rcases exists_addChar_of_decomposes x xs c hread h with ⟨c', hc, hrest⟩
      rw [hc, ih c' hrest]

/-- A cutting decomposes a text exactly if it is the cutting of the text. -/
theorem decomposes_iff (s : List Char) (c : Cutting) : c.Decomposes s ↔ c = ofChars s := by
  constructor
  · exact eq_ofChars_of_decomposes s c
  · intro h
    rw [h]
    exact decomposes_ofChars s

theorem tokens_occurrencesFrom (behind ahead : List Char) (cuts : List (List Char × Token)) :
    (occurrencesFrom behind ahead cuts).map Occurrence.token = cuts.map Prod.snd := by
  induction cuts generalizing behind ahead with
  | nil => rfl
  | cons first cuts ih =>
      unfold occurrencesFrom
      rw [List.map_cons, List.map_cons, ih]

/-- The occurrences of a cutting are those of its tokens, in order. -/
theorem tokens_occurrences (c : Cutting) :
    c.occurrences.map Occurrence.token = c.cuts.map Prod.snd :=
  tokens_occurrencesFrom [] c.chars c.cuts

end Cutting

/-- The tokens of a text, from the left. -/
def tokensOf (text : String) : List Token := (Cutting.ofChars text.toList).cuts.map Prod.snd

end Phrasebook
