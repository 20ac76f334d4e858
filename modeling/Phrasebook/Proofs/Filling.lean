import Phrasebook.Proofs.Cutting
import Phrasebook.Proofs.Replace

/-!
# Filling Tokens One After Another

There are two ways to put images for the tokens of a text. They can be put where the
tokens were found, or each token can be searched for as a text and replaced wherever
it stands. The second way works on texts that change: after some replacements the
text is `Cutting.filled`, with images for some tokens and spellings for the others,
and what is searched for then is not what was cut at the start.

The two ways agree as long as every token stands at one place of the text in which it
is replaced, and only then (`foldl_replace_eq_iff`). If it stands at a second place,
that place is filled as well, and its braces are gone for good; counting opening
braces shows that no later replacement can make up for it.

A second place can only come from braces that belong to no token. An image has no
braces, so they were there before, around one or more tokens, with nothing else
between them than what may stand in a token. `Encloses` says that a text has such
braces, and without them the two ways agree for all images.

## Main definitions

* `Cutting.filled`: A text in which some of the tokens are filled.
* `Token.IsInner`: A character that may stand between the braces of a token.
* `Encloses`: Braces around tokens, with nothing else that is foreign to a token.

## Theorems

* `Token.braced_spelling`, `Token.eq_of_spelling_eq`: Tokens are braced patterns,
  and known by them.
* `Cutting.filled_of_split`, `Cutting.filled_or_of_split`: A text around one of its
  tokens, before and after it is filled.
* `Cutting.place_or_encloses`: Where a token can stand in a text.
* `Cutting.occursOnce_of_not_encloses`: Without enclosing braces that is one place.
* `Cutting.replace_filled`: Replacing a token that stands at one place fills it.
* `Cutting.count_filled`: Each token that is filled costs an opening brace.
* `Cutting.foldl_replace_eq_iff`: When replacing tokens fills them.
-/

namespace Phrasebook

open Text (BraceFree Braced OccursOnce replace)

namespace Token

/-- The characters that may stand between the braces of a token. -/
def IsInner (c : Char) : Prop := Text.isWordChar c = true ∨ c = ':'

/-- What stands between the braces of a token. -/
def inside (t : Token) : List Char := t.name ++ typeSpelling t.type

theorem isInner_of_mem_inside (t : Token) (h : t.WellFormed) (c : Char) (hc : c ∈ t.inside) :
    IsInner c := by
  rcases List.mem_append.mp hc with hname | htype
  · exact Or.inl (h.2.1 c hname)
  · cases htoken : t.type with
    | none =>
        rw [htoken] at htype
        cases htype
    | some type =>
        rw [htoken] at htype
        rcases List.mem_cons.mp htype with hcolon | htype
        · exact Or.inr hcolon
        · exact Or.inl (h.2.2 type htoken c htype)

theorem braceFree_of_isInner (s : List Char) (h : ∀ c ∈ s, IsInner c) : BraceFree s := by
  constructor
  · intro hopen
    rcases h _ hopen with hword | hcolon
    · rw [Text.not_isWordChar_openBrace] at hword
      cases hword
    · exact absurd hcolon (by decide)
  · intro hclose
    rcases h _ hclose with hword | hcolon
    · rw [Text.not_isWordChar_closeBrace] at hword
      cases hword
    · exact absurd hcolon (by decide)

theorem spelling_eq (t : Token) : t.spelling = '\x7b' :: (t.inside ++ ['\x7d']) := rfl

/-- A token is a braced pattern. -/
theorem braced_spelling (t : Token) (h : t.WellFormed) : Braced t.spelling :=
  ⟨t.inside, braceFree_of_isInner t.inside (isInner_of_mem_inside t h), rfl⟩

/-- A token is known by its spelling. -/
theorem eq_of_spelling_eq (t t' : Token) (h : t.WellFormed) (h' : t'.WellFormed)
    (heq : t.spelling = t'.spelling) : t = t' := by
  have hread : read? (t.spelling ++ []) = some (t, []) := read?_spelling_append h
  rw [heq, read?_spelling_append h', Option.some.injEq, Prod.mk.injEq] at hread
  exact hread.1.symm

end Token

/-- Somewhere in a text braces enclose one or more tokens, and apart from these only
    characters that may stand in a token. -/
def Encloses (s : List Char) : Prop :=
  ∃ (front : List Char) (c : Cutting) (back : List Char),
    s = front ++ '\x7b' :: (c.chars ++ '\x7d' :: back) ∧ c.cuts ≠ [] ∧
    (∀ cut ∈ c.cuts, cut.2.WellFormed ∧ ∀ x ∈ cut.1, Token.IsInner x) ∧
    ∀ x ∈ c.tail, Token.IsInner x

/-- Behind a first text a character stands in that text, or behind it. -/
theorem append_eq_append_cons (a b s v : List Char) (x : Char) (h : a ++ b = s ++ x :: v) :
    (∃ y, a = s ++ x :: y) ∨ ∃ y, s = a ++ y ∧ b = y ++ x :: v := by
  rcases List.append_eq_append_iff.mp h with ⟨y, hs, hb⟩ | ⟨y, ha, hv⟩
  · exact Or.inr ⟨y, hs, hb⟩
  · cases y with
    | nil => exact Or.inr ⟨[], by rw [ha, List.append_nil, List.append_nil], hv.symm⟩
    | cons z y =>
        rw [List.cons_append, List.cons.injEq] at hv
        exact Or.inl ⟨y, by rw [ha, hv.1]⟩

namespace Cutting

/-- The text of a cutting in which the tokens that `done` picks are filled. -/
def filled (image : Token → List Char) (done : Token → Bool) (c : Cutting) : List Char :=
  c.cuts.flatMap (fun (gap, t) => gap ++ if done t then image t else t.spelling) ++ c.tail

/-- What stands in front of the first token, or all of a text without tokens. -/
def head : Cutting → List Char
  | ⟨[], tail⟩ => tail
  | ⟨(gap, _) :: _, _⟩ => gap

theorem exists_append_of_head (c : Cutting) : ∃ rest, c.chars = c.head ++ rest := by
  rcases c with ⟨cuts, tail⟩
  cases cuts with
  | nil => exact ⟨[], (List.append_nil tail).symm⟩
  | cons cut cuts => exact ⟨_, chars_cons cut.1 cut.2 cuts tail⟩

section Filled

variable (image : Token → List Char) (done : Token → Bool)

theorem filled_nil (tail : List Char) : filled image done ⟨[], tail⟩ = tail := rfl

theorem filled_cons (gap : List Char) (t : Token) (cuts : List (List Char × Token))
    (tail : List Char) :
    filled image done ⟨(gap, t) :: cuts, tail⟩ =
      gap ++ ((if done t then image t else t.spelling) ++ filled image done ⟨cuts, tail⟩) := by
  unfold filled
  rw [List.flatMap_cons, List.append_assoc, List.append_assoc]

/-- As long as nothing is filled a text is what it was. -/
theorem filled_of_forall_false (c : Cutting) (h : ∀ t, done t = false) :
    filled image done c = c.chars := by
  unfold filled chars charsOf
  simp only [h, Bool.false_eq_true, if_false]

theorem filled_congr (done' : Token → Bool) (c : Cutting)
    (h : ∀ t ∈ c.cuts.map Prod.snd, done t = done' t) :
    filled image done c = filled image done' c := by
  unfold filled
  refine congrArg (· ++ c.tail) (List.flatMap_congr (fun cut hcut => ?_))
  simp only [h cut.2 (List.mem_map_of_mem hcut)]

/-- A text around one of its tokens. -/
theorem filled_of_split (front back : List (List Char × Token)) (gap : List Char) (t : Token)
    (tail : List Char) :
    filled image done ⟨front ++ (gap, t) :: back, tail⟩ =
      filled image done ⟨front, gap⟩ ++
        ((if done t then image t else t.spelling) ++ filled image done ⟨back, tail⟩) := by
  induction front with
  | nil => exact filled_cons image done gap t back tail
  | cons cut front ih =>
      rw [List.cons_append, filled_cons, ih, filled_cons, List.append_assoc, List.append_assoc]

/-- The text around a token, once that token is filled as well. The other parts of
    the text do not change, since the token does not stand in them. -/
theorem filled_or_of_split (front back : List (List Char × Token)) (gap : List Char) (t : Token)
    (tail : List Char) (hnodup : ((front ++ (gap, t) :: back).map Prod.snd).Nodup) :
    filled image (fun u => done u || decide (u = t)) ⟨front ++ (gap, t) :: back, tail⟩ =
      filled image done ⟨front, gap⟩ ++ (image t ++ filled image done ⟨back, tail⟩) := by
  rw [List.map_append, List.map_cons, List.nodup_append, List.nodup_cons] at hnodup
  rcases hnodup with ⟨-, ⟨hback, -⟩, hfront⟩
  -- On either side of the token it is not met again, so filling it changes nothing there.
  have hsame : ∀ (cuts : List (List Char × Token)) (last : List Char),
      t ∉ cuts.map Prod.snd →
      filled image (fun u => done u || decide (u = t)) ⟨cuts, last⟩ =
        filled image done ⟨cuts, last⟩ := by
    intro cuts last hnot
    refine filled_congr image _ done ⟨cuts, last⟩ (fun u hu => ?_)
    have hne : u ≠ t := fun heq => hnot (heq ▸ hu)
    rw [decide_eq_false hne, Bool.or_false]
  have hnot : t ∉ front.map Prod.snd := fun hmem => hfront t hmem t List.mem_cons_self rfl
  rw [filled_of_split, hsame front gap hnot, hsame back tail hback]
  simp only [decide_true, Bool.or_true, if_true]

end Filled

section Places

variable (image : Token → List Char) (done : Token → Bool)

/-- A closing brace behind a text that could stand in a token: it belongs to no
    token and to no image, so it stands in a gap, the first one or a later one. -/
theorem closes (cuts : List (List Char × Token)) (tail inside v : List Char)
    (hwell : ∀ cut ∈ cuts, cut.2.WellFormed) (himage : ∀ cut ∈ cuts, BraceFree (image cut.2))
    (hinside : ∀ x ∈ inside, Token.IsInner x)
    (h : filled image done ⟨cuts, tail⟩ = inside ++ '\x7d' :: v) :
    (∃ rest, head ⟨cuts, tail⟩ = inside ++ '\x7d' :: rest) ∨
      ∃ (c : Cutting) (back : List Char),
        chars ⟨cuts, tail⟩ = c.chars ++ '\x7d' :: back ∧ c.cuts ≠ [] ∧
        (∀ cut ∈ c.cuts, cut.2.WellFormed ∧ ∀ x ∈ cut.1, Token.IsInner x) ∧
        ∀ x ∈ c.tail, Token.IsInner x := by
  -- The inside gets shorter from cut to cut.
  induction cuts generalizing inside with
  | nil => exact Or.inl ⟨v, h⟩
  | cons cut cuts ih =>
      rcases cut with ⟨gap, t⟩
      rcases List.forall_mem_cons.mp hwell with ⟨ht, hwell⟩
      rcases List.forall_mem_cons.mp himage with ⟨himaget, himage⟩
      rw [filled_cons] at h
      rcases append_eq_append_cons _ _ _ _ _ h with hfirst | ⟨x, rfl, hbehind⟩
      · exact Or.inl hfirst
      · right
        have hgap : ∀ y ∈ gap, Token.IsInner y := fun y hy => hinside y (List.mem_append_left x hy)
        have hx : ∀ y ∈ x, Token.IsInner y := fun y hy => hinside y (List.mem_append_right gap hy)
        cases hdone : done t with
        | false =>
            -- A token would open with a brace, and the inside has none.
            exfalso
            rw [hdone, if_neg Bool.false_ne_true, Token.spelling_eq, List.cons_append] at hbehind
            cases x with
            | nil => exact absurd (List.cons.inj hbehind).1 (by decide)
            | cons y x =>
                rw [List.cons_append, List.cons.injEq] at hbehind
                exact (Token.braceFree_of_isInner _ hx).1 (hbehind.1 ▸ List.mem_cons_self)
        | true =>
            rw [hdone, if_pos rfl] at hbehind
            rcases append_eq_append_cons _ _ _ _ _ hbehind with ⟨y, hy⟩ | ⟨y, rfl, hrest⟩
            · exfalso
              refine himaget.2 ?_
              rw [hy]
              exact List.mem_append_right x List.mem_cons_self
            · have hy : ∀ z ∈ y, Token.IsInner z :=
                fun z hz => hx z (List.mem_append_right (image t) hz)
              rcases ih y hwell himage hy hrest with
                ⟨rest, hhead⟩ | ⟨c, back, hchars, -, hcuts, htail⟩
              · rcases exists_append_of_head ⟨cuts, tail⟩ with ⟨others, hothers⟩
                refine ⟨⟨[(gap, t)], y⟩, rest ++ others, ?_, List.cons_ne_nil _ _, ?_, hy⟩
                · rw [chars_cons, chars_cons, hothers, hhead]
                  simp only [chars, charsOf, List.flatMap_nil, List.nil_append, List.append_assoc,
                    List.cons_append]
                · intro cut hcut
                  rw [List.mem_singleton.mp hcut]
                  exact ⟨ht, hgap⟩
              · refine ⟨⟨(gap, t) :: c.cuts, c.tail⟩, back, ?_, List.cons_ne_nil _ _, ?_, htail⟩
                · rw [chars_cons, chars_cons, hchars, List.append_assoc, List.append_assoc]
                · exact List.forall_mem_cons.mpr ⟨⟨ht, hgap⟩, hcuts⟩

/-- Where a token can stand in a text in which some tokens are filled: at its own
    place, or in braces around filled tokens. -/
theorem place_or_encloses (c : Cutting) (s : List Char) (t : Token) (hc : c.Decomposes s)
    (ht : t.WellFormed) (himage : ∀ u ∈ c.cuts.map Prod.snd, BraceFree (image u))
    (u v : List Char) (h : filled image done c = u ++ (t.spelling ++ v)) :
    (∃ front gap back, c.cuts = front ++ (gap, t) :: back ∧
      u = filled image done ⟨front, gap⟩) ∨ Encloses s := by
  rcases c with ⟨cuts, tail⟩
  induction cuts generalizing s u with
  | nil =>
      rcases (decomposes_nil_iff tail s).mp hc with ⟨-, hfree⟩
      refine absurd ?_ (hfree t ht)
      exact ⟨u, v, by rw [List.append_assoc]; exact h.symm⟩
  | cons cut cuts ih =>
      rcases cut with ⟨gap, t'⟩
      rcases (decomposes_cons_iff _ _ _ _ _).mp hc with ⟨ht', hgap, rest, rfl, hrest⟩
      rcases List.forall_mem_cons.mp himage with ⟨himaget, himages⟩
      rw [Token.spelling_eq t, List.cons_append, List.append_assoc, List.singleton_append] at h
      rw [filled_cons] at h
      -- The opening brace stands in the gap, in the token or its image, or behind.
      rcases append_eq_append_cons _ _ _ _ _ h with ⟨y, rfl⟩ | ⟨x, rfl, hbehind⟩
      · right
        rw [List.append_assoc, List.cons_append] at h
        have hinner := (List.cons.inj (List.append_cancel_left h)).2
        rw [← filled_cons] at hinner
        have hclosed := closes image done ((y, t') :: cuts) tail t.inside v
          (List.forall_mem_cons.mpr ⟨ht', hrest.tokens⟩)
          (List.forall_mem_cons.mpr ⟨himaget, fun cut hcut => himages _ (List.mem_map_of_mem hcut)⟩)
          (Token.isInner_of_mem_inside t ht) hinner
        rcases hclosed with ⟨behind, hhead⟩ | ⟨c, back, hchars, hcuts⟩
        · -- Both braces in the gap would be a token that was missed.
          exfalso
          have hhead : y = t.inside ++ '\x7d' :: behind := hhead
          refine hgap t ht ⟨u, behind, ?_⟩
          rw [hhead, Token.spelling_eq, List.append_assoc, List.cons_append, List.append_assoc,
            List.singleton_append]
        · refine ⟨u, c, back, ?_, hcuts⟩
          rw [chars_cons, hrest.chars] at hchars
          rw [List.append_assoc, List.cons_append, hchars]
      · rcases append_eq_append_cons _ _ _ _ _ hbehind with ⟨y, hy⟩ | ⟨x', rfl, hrest'⟩
        · cases hdone : done t' with
          | true =>
              exfalso
              rw [hdone, if_pos rfl] at hy
              refine himaget.1 ?_
              rw [hy]
              exact List.mem_append_right x List.mem_cons_self
          | false =>
              -- In a token only the first character is an opening brace.
              rw [hdone, if_neg Bool.false_ne_true] at hy hbehind
              have hx : x = [] := by
                by_contra hne
                exact Braced.openBrace_not_mem x _ (hy ▸ t'.braced_spelling ht') hne
                  List.mem_cons_self
              subst hx
              have hsame : t'.spelling ++ filled image done ⟨cuts, tail⟩ = t.spelling ++ v := by
                rw [hbehind, Token.spelling_eq t, List.nil_append, List.cons_append,
                  List.append_assoc, List.singleton_append]
              have hspelling := (t'.braced_spelling ht').eq_of_append_eq (t.braced_spelling ht)
                _ _ hsame
              have htoken := Token.eq_of_spelling_eq t' t ht' ht hspelling
              refine Or.inl ⟨[], gap, cuts, by rw [htoken, List.nil_append], ?_⟩
              rw [List.append_nil, filled_nil]
        · have hnext : filled image done ⟨cuts, tail⟩ = x' ++ (t.spelling ++ v) := by
            rw [hrest', Token.spelling_eq t, List.cons_append, List.append_assoc,
              List.singleton_append]
          rcases ih rest x' hrest himages hnext with
            ⟨front, gap', back, hcuts, rfl⟩ | ⟨front, c, back, hs, henclosed⟩
          · have hcuts : cuts = front ++ (gap', t) :: back := hcuts
            refine Or.inl ⟨(gap, t') :: front, gap', back, by rw [hcuts, List.cons_append], ?_⟩
            rw [filled_cons]
          · refine Or.inr ⟨gap ++ (t'.spelling ++ front), c, back, ?_, henclosed⟩
            rw [hs, List.append_assoc, List.append_assoc]

theorem eq_of_split (front front' back back' : List (List Char × Token)) (gap gap' : List Char)
    (t : Token) (hnodup : ((front ++ (gap, t) :: back).map Prod.snd).Nodup)
    (h : front ++ (gap, t) :: back = front' ++ (gap', t) :: back') :
    front = front' ∧ gap = gap' := by
  induction front generalizing front' with
  | nil =>
      cases front' with
      | nil => exact ⟨rfl, congrArg Prod.fst (List.cons.inj h).1⟩
      | cons cut front' =>
          -- The token would stand a second time behind its first place.
          exfalso
          rw [List.nil_append, List.map_cons, List.nodup_cons] at hnodup
          have hback : back = front' ++ (gap', t) :: back' := (List.cons.inj h).2
          refine hnodup.1 ?_
          rw [hback, List.map_append, List.map_cons]
          exact List.mem_append_right _ List.mem_cons_self
  | cons cut front ih =>
      rw [List.cons_append, List.map_cons, List.nodup_cons] at hnodup
      cases front' with
      | nil =>
          exfalso
          refine hnodup.1 ?_
          rw [(List.cons.inj h).1, List.map_append, List.map_cons]
          exact List.mem_append_right _ List.mem_cons_self
      | cons cut' front' =>
          rcases ih front' hnodup.2 (List.cons.inj h).2 with ⟨hfront, hgap⟩
          exact ⟨by rw [(List.cons.inj h).1, hfront], hgap⟩

/-- Without enclosing braces a token that is not filled stands at its own place only. -/
theorem occursOnce_of_not_encloses (c : Cutting) (s : List Char) (t : Token)
    (hc : c.Decomposes s) (himage : ∀ u ∈ c.cuts.map Prod.snd, BraceFree (image u))
    (hnodup : (c.cuts.map Prod.snd).Nodup) (ht : t ∈ c.cuts.map Prod.snd)
    (hdone : done t = false) (h : ¬Encloses s) :
    OccursOnce t.spelling (filled image done c) := by
  rcases List.mem_map.mp ht with ⟨⟨gap, t⟩, hcut, rfl⟩
  have hwell : t.WellFormed := hc.tokens _ hcut
  rcases List.append_of_mem hcut with ⟨front, back, hcuts⟩
  have hown : filled image done c =
      filled image done ⟨front, gap⟩ ++ (t.spelling ++ filled image done ⟨back, c.tail⟩) := by
    have hsplit := filled_of_split image done front back gap t c.tail
    rw [hdone, if_neg Bool.false_ne_true, ← hcuts] at hsplit
    exact hsplit
  refine ⟨filled image done ⟨front, gap⟩, ⟨_, hown⟩, ?_⟩
  rintro other ⟨rest, hrest⟩
  -- A place of the token is one where it was cut, or a text encloses a token.
  rcases place_or_encloses image done c s t hc hwell himage other rest hrest with
    ⟨front', gap', back', hcuts', hother⟩ | henclosed
  · rcases eq_of_split front front' back back' gap gap' t (hcuts ▸ hnodup)
      (hcuts.symm.trans hcuts') with ⟨rfl, rfl⟩
    exact hother
  · exact absurd henclosed h

end Places

section Steps

variable (image : Token → List Char) (c : Cutting) (hnodup : (c.cuts.map Prod.snd).Nodup)

include hnodup

/-- A token that is not filled stands somewhere, and filling it changes the text
    there. -/
theorem exists_place (done : Token → Bool) (t : Token) (ht : t ∈ c.cuts.map Prod.snd)
    (hdone : done t = false) : ∃ front back,
      filled image done c = front ++ (t.spelling ++ back) ∧
      filled image (fun u => done u || decide (u = t)) c = front ++ (image t ++ back) := by
  rcases c with ⟨cuts, tail⟩
  rcases List.mem_map.mp ht with ⟨⟨gap, t⟩, hcut, rfl⟩
  rcases List.append_of_mem hcut with ⟨front, back, rfl⟩
  refine ⟨filled image done ⟨front, gap⟩, filled image done ⟨back, tail⟩, ?_,
    filled_or_of_split image done front back gap t tail hnodup⟩
  rw [filled_of_split, hdone, if_neg Bool.false_ne_true]

theorem infix_filled (done : Token → Bool) (t : Token) (ht : t ∈ c.cuts.map Prod.snd)
    (hdone : done t = false) : t.spelling <:+: filled image done c := by
  rcases exists_place image c hnodup done t ht hdone with ⟨front, back, hplace, -⟩
  exact ⟨front, back, by rw [hplace, List.append_assoc]⟩

/-- Replacing a token that stands at one place fills it. -/
theorem replace_filled (done : Token → Bool) (t : Token) (hwell : t.WellFormed)
    (ht : t ∈ c.cuts.map Prod.snd) (hdone : done t = false)
    (honce : OccursOnce t.spelling (filled image done c)) :
    replace t.spelling (image t) (filled image done c) =
      filled image (fun u => done u || decide (u = t)) c := by
  rcases exists_place image c hnodup done t ht hdone with ⟨front, back, hplace, hfilled⟩
  rw [hplace] at honce ⊢
  rw [hfilled]
  exact Text.replace_of_once t.spelling (image t) (t.braced_spelling hwell).ne_nil front back honce

variable (himage : ∀ u ∈ c.cuts.map Prod.snd, BraceFree (image u))
  (hwell : ∀ u ∈ c.cuts.map Prod.snd, u.WellFormed)

include himage hwell

/-- Each token that is filled costs an opening brace. -/
theorem count_filled (ts : List Token) (done : Token → Bool) (hts : ts.Nodup)
    (hin : ∀ t ∈ ts, t ∈ c.cuts.map Prod.snd) (hdone : ∀ t ∈ ts, done t = false) :
    (filled image (fun u => done u || decide (u ∈ ts)) c).count '\x7b' + ts.length =
      (filled image done c).count '\x7b' := by
  induction ts generalizing done with
  | nil => simp only [List.not_mem_nil, decide_false, Bool.or_false, List.length_nil, Nat.add_zero]
  | cons t ts ih =>
      rcases List.nodup_cons.mp hts with ⟨hnot, hts⟩
      rcases List.forall_mem_cons.mp hin with ⟨ht, hin⟩
      rcases List.forall_mem_cons.mp hdone with ⟨hdonet, hdone⟩
      have hnext : ∀ u ∈ ts, (done u || decide (u = t)) = false := by
        intro u hu
        have hne : u ≠ t := fun heq => hnot (heq ▸ hu)
        rw [hdone u hu, decide_eq_false hne, Bool.or_false]
      have hrest := ih (fun u => done u || decide (u = t)) hts hin hnext
      -- Filling a token takes its opening brace away and puts none in its place.
      have hfirst : (filled image (fun u => done u || decide (u = t)) c).count '\x7b' + 1 =
          (filled image done c).count '\x7b' := by
        rcases exists_place image c hnodup done t ht hdonet with ⟨front, back, hplace, hfilled⟩
        have hone := (t.braced_spelling (hwell t ht)).count_openBrace
        have hnone := List.count_eq_zero_of_not_mem (himage t ht).1
        rw [hplace, hfilled, List.count_append, List.count_append, List.count_append,
          List.count_append]
        omega
      simp only [List.mem_cons, Bool.decide_or, ← Bool.or_assoc, List.length_cons]
      omega

/-- Replacing tokens one after another fills them exactly if each stands at one place
    of the text in which those before it are filled. -/
theorem foldl_replace_eq_iff (ts : List Token) (done : Token → Bool) (hts : ts.Nodup)
    (hin : ∀ t ∈ ts, t ∈ c.cuts.map Prod.snd) (hdone : ∀ t ∈ ts, done t = false) :
    ts.foldl (fun s t => replace t.spelling (image t) s) (filled image done c) =
        filled image (fun u => done u || decide (u ∈ ts)) c ↔
      ∀ front t back, ts = front ++ t :: back →
        OccursOnce t.spelling (filled image (fun u => done u || decide (u ∈ front)) c) := by
  induction ts generalizing done with
  | nil =>
      refine iff_of_true ?_ ?_
      · simp only [List.foldl_nil, List.not_mem_nil, decide_false, Bool.or_false]
      · intro front t back h
        exact absurd h.symm (List.append_ne_nil_of_right_ne_nil front (List.cons_ne_nil t back))
  | cons t ts ih =>
      have htotal := count_filled image c hnodup himage hwell (t :: ts) done hts hin hdone
      rcases List.nodup_cons.mp hts with ⟨hnot, hts⟩
      rcases List.forall_mem_cons.mp hin with ⟨ht, hin⟩
      rcases List.forall_mem_cons.mp hdone with ⟨hdonet, hdone⟩
      have hmember : ∀ (front : List Token),
          (fun u => done u || decide (u ∈ t :: front)) =
            fun u => done u || decide (u = t) || decide (u ∈ front) := by
        intro front
        funext u
        simp only [List.mem_cons, Bool.decide_or, Bool.or_assoc]
      by_cases honce : OccursOnce t.spelling (filled image done c)
      · -- The first token is filled, and the others are replaced in what results.
        have hnext : ∀ u ∈ ts, (done u || decide (u = t)) = false := by
          intro u hu
          have hne : u ≠ t := fun heq => hnot (heq ▸ hu)
          rw [hdone u hu, decide_eq_false hne, Bool.or_false]
        rw [List.foldl_cons, replace_filled image c hnodup done t (hwell t ht) ht hdonet honce,
          hmember, ih (fun u => done u || decide (u = t)) hts hin hnext]
        constructor
        · intro h front u back hsplit
          cases front with
          | nil =>
              rw [List.nil_append, List.cons.injEq] at hsplit
              simp only [List.not_mem_nil, decide_false, Bool.or_false]
              rw [← hsplit.1]
              exact honce
          | cons first front =>
              rw [List.cons_append, List.cons.injEq] at hsplit
              rw [← hsplit.1, hmember]
              exact h front u back hsplit.2
        · intro h front u back hsplit
          have hall := h (t :: front) u back (by rw [hsplit, List.cons_append])
          rwa [hmember] at hall
      · -- The first token takes two braces, and each of the others at least one more.
        refine iff_of_false ?_ ?_
        · intro heq
          have hinfix := infix_filled image c hnodup done t ht hdonet
          have hfirst := Text.count_replace_add_two_le (image t) (himage t ht)
            (t.braced_spelling (hwell t ht)) _ hinfix honce
          have hdistinct : (ts.map Token.spelling).Nodup := by
            refine List.pairwise_map.mpr (hts.imp_of_mem (fun hu hw hne hspelling => hne ?_))
            exact Token.eq_of_spelling_eq _ _ (hwell _ (hin _ hu)) (hwell _ (hin _ hw)) hspelling
          have hothers := Text.count_foldl_replace_le Token.spelling image ts
            (replace t.spelling (image t) (filled image done c))
            (fun u hu => u.braced_spelling (hwell u (hin u hu)))
            (fun u hu => himage u (hin u hu)) hdistinct (by
              intro u hu
              refine Text.infix_replace (image t) (t.braced_spelling (hwell t ht))
                (u.braced_spelling (hwell u (hin u hu))) ?_ _
                (infix_filled image c hnodup done u (hin u hu) (hdone u hu))
              intro hspelling
              have hsame := Token.eq_of_spelling_eq t u (hwell t ht) (hwell u (hin u hu)) hspelling
              exact hnot (hsame ▸ hu))
          rw [List.foldl_cons] at heq
          rw [heq] at hothers
          rw [List.length_cons] at htotal
          omega
        · intro h
          have hfirst := h [] t ts rfl
          simp only [List.not_mem_nil, decide_false, Bool.or_false] at hfirst
          exact honce hfirst

end Steps

end Cutting

end Phrasebook
