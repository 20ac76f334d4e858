import Phrasebook.Proofs.Filling
import Phrasebook.Proofs.TextDefects
import Phrasebook.Proofs.WordClasses

/-!
# Tokens in Braces

A token right inside another pair of braces looks like a placeholder with a placeholder
for its name, and a text with one is refused. What may stand between the token and the
braces is told by the characters of identifiers, though, and not by those that names in a
placeholder are made of. So a text is refused if only plain characters are in between, and
may be read if there is a mark, a connector or a joiner as well, as in a name with a
combining accent.

All of this is about one token of a text. That a token of the grammar which is seen
somewhere in a text is one of those that the text is cut at needs an argument: no other
token overlaps it, since a token has an opening brace at its front and nowhere else.

## Theorems

* `Cutting.exists_occurrence_of_split`: A token that stands somewhere in a text is one of
  its occurrences.
* `Occurrence.isWrapped_of_split`: Which tokens in braces are found to be wrapped.
* `Reading.ofText_nested`: Which texts with a token in braces are refused.
-/

namespace Phrasebook

namespace Cutting

/-- The first occurrence in a text that starts with a gap and a token, and the others. -/
theorem occurrencesFrom_cons (behind gap : List Char) (t : Token) (rest : List Char)
    (cuts : List (List Char × Token)) :
    occurrencesFrom behind (gap ++ (t.spelling ++ rest)) ((gap, t) :: cuts) =
      ⟨gap.reverse ++ behind, t, rest⟩ ::
        occurrencesFrom (t.spelling.reverse ++ (gap.reverse ++ behind)) rest cuts := by
  have hahead : (gap ++ (t.spelling ++ rest)).drop (gap.length + t.spelling.length) = rest := by
    rw [← List.append_assoc, ← List.length_append, List.drop_left]
  rw [occurrencesFrom, hahead]

/-- A token that stands somewhere in a text is one of its occurrences, with what stands on
    either side of it. -/
theorem exists_occurrence_of_split (cuts : List (List Char × Token)) (tail s : List Char)
    (hc : Decomposes ⟨cuts, tail⟩ s) (t : Token) (ht : t.WellFormed) (front back : List Char)
    (h : s = front ++ (t.spelling ++ back)) (behind : List Char) :
    ⟨front.reverse ++ behind, t, back⟩ ∈ occurrencesFrom behind s cuts := by
  induction cuts generalizing s front behind with
  | nil =>
      rcases (decomposes_nil_iff tail s).mp hc with ⟨rfl, hfree⟩
      exact absurd ⟨front, back, by rw [List.append_assoc]; exact h.symm⟩ (hfree t ht)
  | cons cut cuts ih =>
      rcases cut with ⟨gap, t'⟩
      rcases (decomposes_cons_iff _ _ _ _ _).mp hc with ⟨ht', hgap, rest, rfl, hrest⟩
      rw [occurrencesFrom_cons]
      have hbrace := h
      rw [t.spelling_eq, List.cons_append] at hbrace
      -- The opening brace stands in the gap, in the first token, or behind it.
      rcases append_eq_append_cons _ _ _ _ _ hbrace with ⟨y, rfl⟩ | ⟨x, rfl, hbehind⟩
      · exfalso
        rw [List.append_assoc] at h
        have hinner := List.append_cancel_left h
        have hfree : TokenFree ('\x7b' :: y) := fun u hu hwithin =>
          hgap u hu (hwithin.trans (List.suffix_append front _).isInfix)
        exact List.cons_ne_nil _ _
          (eq_nil_of_spelling_append t t' ht _ back rest hfree hinner.symm)
      · rcases append_eq_append_cons _ _ _ _ _ hbehind with ⟨y, hy⟩ | ⟨x', rfl, hrest'⟩
        · -- In a token only the first character is an opening brace.
          have hx : x = [] := by
            by_contra hne
            exact Text.Braced.openBrace_not_mem x _ (hy ▸ t'.braced_spelling ht') hne
              List.mem_cons_self
          subst hx
          rw [List.append_nil] at h
          have hread : Token.read? (t.spelling ++ back) = some (t, back) :=
            Token.read?_spelling_append ht
          rw [← List.append_cancel_left h, Token.read?_spelling_append ht'] at hread
          cases hread
          rw [List.append_nil]
          exact List.mem_cons_self
        · have hnext : rest = x' ++ (t.spelling ++ back) := by
            rw [hrest', t.spelling_eq, List.cons_append]
          have hlater := ih rest hrest x' hnext (t'.spelling.reverse ++ (gap.reverse ++ behind))
          rw [List.reverse_append, List.reverse_append, List.append_assoc, List.append_assoc]
          exact List.mem_cons_of_mem _ hlater

end Cutting

namespace Occurrence

/-- A brace behind characters of names is reached if these are plain. -/
theorem reaches_append_iff (brace : Char) (inner rest : List Char)
    (hword : Text.isWordChar brace = false) (hidentifier : Text.isIdentifierChar brace = false)
    (hinner : ∀ x ∈ inner, Text.isWordChar x = true) :
    reaches brace (inner ++ brace :: rest) = true ↔ ∀ x ∈ inner, Text.isPlainChar x = true := by
  rw [reaches_iff brace _ hidentifier]
  constructor
  · rintro ⟨passed, rest', hpassed, hall⟩ x hx
    rcases append_eq_append_cons _ _ _ _ _ hpassed with ⟨y, rfl⟩ | ⟨y, rfl, -⟩
    · -- The brace would be one of the characters of names.
      have hbrace := hinner brace (List.mem_append_right passed List.mem_cons_self)
      rw [hword] at hbrace
      cases hbrace
    · exact (Text.isPlainChar_iff x).mpr ⟨hinner x hx, hall x (List.mem_append_left y hx)⟩
  · intro hplain
    exact ⟨inner, rest, rfl, fun x hx => ((Text.isPlainChar_iff x).mp (hplain x hx)).2⟩

/-- A token in braces, with characters of names between, is wrapped exactly if these are
    plain. -/
theorem wrapped_iff_of_split (t : Token) (front inner inner' back : List Char)
    (hinner : ∀ x ∈ inner, Text.isWordChar x = true)
    (hinner' : ∀ x ∈ inner', Text.isWordChar x = true) :
    Wrapped ⟨(front ++ '\x7b' :: inner).reverse, t, inner' ++ '\x7d' :: back⟩ ↔
      ∀ x ∈ inner ++ inner', Text.isPlainChar x = true := by
  have hbehind : (front ++ '\x7b' :: inner).reverse = inner.reverse ++ '\x7b' :: front.reverse := by
    rw [List.reverse_append, List.reverse_cons, List.append_assoc, List.singleton_append]
  have hreversed : ∀ x ∈ inner.reverse, Text.isWordChar x = true :=
    fun x hx => hinner x (List.mem_reverse.mp hx)
  -- A word character that is not plain stops the run on the way to its brace.
  rw [← isWrapped_iff, isWrapped, hbehind, Bool.and_eq_true,
    reaches_append_iff _ _ _ Text.not_isWordChar_openBrace (by decide +kernel) hreversed,
    reaches_append_iff _ _ _ Text.not_isWordChar_closeBrace (by decide +kernel) hinner',
    List.forall_mem_append]
  simp only [List.mem_reverse]

end Occurrence

namespace Reading

/-- A token in braces with characters of names between: it is one of the tokens of the text,
    and wrapped exactly if the characters between are plain. The text is refused then,
    whatever else is in it. If it was read, there is a mark between, or a connector other
    than `_`, or a joiner. -/
theorem ofText_nested (types : Dict CustomType) (text : String) (t : Token) (ht : t.WellFormed)
    (front inner inner' back : List Char)
    (htext : text.toList =
      front ++ '\x7b' :: (inner ++ (t.spelling ++ (inner' ++ '\x7d' :: back))))
    (hinner : ∀ x ∈ inner, Text.isWordChar x = true)
    (hinner' : ∀ x ∈ inner', Text.isWordChar x = true) :
    (∃ o ∈ (Cutting.ofChars text.toList).occurrences, o.token = t ∧
      o.behind.reverse = front ++ '\x7b' :: inner ∧ o.ahead = inner' ++ '\x7d' :: back ∧
      (o.Wrapped ↔ ∀ x ∈ inner ++ inner', Text.isPlainChar x = true)) ∧
    ((∀ x ∈ inner ++ inner', Text.isPlainChar x = true) → ∃ d, ofText types text = .error d) ∧
    (∀ r, ofText types text = .ok r → ∃ x ∈ inner ++ inner', Text.isPlainChar x = false ∧
      (Text.isMark x = true ∨ Text.isConnector x = true ∨ Text.isJoiner x = true)) := by
  have hsplit : text.toList = (front ++ '\x7b' :: inner) ++ (t.spelling ++
      (inner' ++ '\x7d' :: back)) := by
    rw [htext, List.append_assoc, List.cons_append]
  have hdecomposes := Cutting.decomposes_ofChars text.toList
  have hmem := Cutting.exists_occurrence_of_split _ _ _ hdecomposes t ht _ _ hsplit []
  rw [List.append_nil] at hmem
  have ho : ⟨(front ++ '\x7b' :: inner).reverse, t, inner' ++ '\x7d' :: back⟩ ∈
      (Cutting.ofChars text.toList).occurrences := by
    rw [Cutting.occurrences, hdecomposes.chars]
    exact hmem
  have hwrapped := Occurrence.wrapped_iff_of_split t front inner inner' back hinner hinner'
  -- No token of a text that was read is wrapped.
  have hread : ∀ r, ofText types text = .ok r →
      ¬ ∀ x ∈ inner ++ inner', Text.isPlainChar x = true := by
    intro r hr hplain
    exact ((acceptable_of_ofText types text r hr).readable _ ho).1 (hwrapped.mpr hplain)
  refine ⟨⟨_, ho, rfl, List.reverse_reverse _, rfl, hwrapped⟩, ?_, ?_⟩
  · intro hplain
    cases hr : ofText types text with
    | ok r => exact absurd hplain (hread r hr)
    | error d => exact ⟨d, rfl⟩
  · intro r hr
    have hsome := hread r hr
    simp only [not_forall, Bool.not_eq_true] at hsome
    rcases hsome with ⟨x, hx, hplain⟩
    have hword := List.forall_mem_append.mpr ⟨hinner, hinner'⟩ x hx
    have hidentifier : Text.isIdentifierChar x = false := by
      rw [Bool.eq_false_iff]
      intro hin
      rw [(Text.isPlainChar_iff x).mpr ⟨hword, hin⟩] at hplain
      cases hplain
    exact ⟨x, hx, (Text.isWordChar_only_iff x).mp ⟨hword, hidentifier⟩⟩

/-- A token right behind a letter in braces. -/
theorem ofText_nested_letter :
    ∃ d, ofText .empty "Hi \x7bx\x7ba\x7d\x7d" = .error d := by
  refine (ofText_nested .empty "Hi \x7bx\x7ba\x7d\x7d" ⟨['a'], none⟩ ?_ "Hi ".toList ['x'] [] []
    ?_ ?_ ?_).2.1 ?_
  · exact ⟨List.cons_ne_nil _ _, List.all_eq_true.mp (by decide +kernel),
      fun type htype => by cases htype⟩
  · rfl
  · exact List.all_eq_true.mp (by decide +kernel)
  · exact List.all_eq_true.mp (by decide +kernel)
  · exact List.all_eq_true.mp (by decide +kernel)

/-- With an accent on the letter the same text is read, and has one token. -/
example : (ofText .empty "Hi \x7be\u0301\x7ba\x7d\x7d").map (fun r => r.signature.keys) =
    .ok ["a"] := by decide +kernel

end Reading

end Phrasebook
