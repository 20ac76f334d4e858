import Phrasebook.Text.Word

/-!
# Placeholder Tokens

The grammar of placeholders. A token is a name in braces, `{name}`, which a
colon and the identifier of a type may follow, `{name:Type}`, or a colon alone,
`{name:}`. Name and identifier are made of word characters, so each ends where
the sign behind it stands, and a text has at most one token at its front.

## Main definitions

* `Token`: A placeholder as it is written.
* `Token.spelling`: The characters of a token.
* `Token.WellFormed`: Name and identifier are made of word characters.
* `Token.read?`: The token at the front of a text.

## Theorems

* `Token.sound_of_readInner?`: What is read behind the opening brace.
* `Token.spelling_append_of_read?`: A token that was read is spelled by the
  front of the text.
* `Token.length_lt_of_read?`: What is left behind a token is shorter.
* `Token.takeWhile_append_sign`, `Token.dropWhile_append_sign`: A run of word
  characters and the sign that ends it.
* `Token.read?_spelling_append`: Every well-formed token is read.
* `Token.wellFormed_of_read?`: No other token is read.
* `Token.read?_eq_some_iff`: Reading finds exactly the well-formed tokens at the
  front.
-/

namespace Phrasebook

/-- A placeholder as it is written. -/
structure Token where
  name : List Char
  /-- What stands behind the colon, if there is a colon. -/
  type : Option (List Char)
  deriving DecidableEq

namespace Token

/-- The characters between the name and the closing brace. -/
def typeSpelling : Option (List Char) → List Char
  | none => []
  | some type => ':' :: type

/-- The characters of a token. -/
def spelling (t : Token) : List Char := '\x7b' :: (t.name ++ typeSpelling t.type ++ ['\x7d'])

/-- Name and identifier are made of word characters, and there is a name. -/
def WellFormed (t : Token) : Prop :=
  t.name ≠ [] ∧ (∀ c ∈ t.name, Text.isWordChar c = true) ∧
    ∀ type, t.type = some type → ∀ c ∈ type, Text.isWordChar c = true

/-- The identifier of the type, if one is written. -/
def identifier? (t : Token) : Option (List Char) := t.type.filter (fun type => !type.isEmpty)

/-- The token whose opening brace stands in front of a text, and the text behind
    it. -/
def readInner? (s : List Char) : Option (Token × List Char) :=
  let name := s.takeWhile Text.isWordChar
  if name = [] then none
  else
    match s.dropWhile Text.isWordChar with
    | [] => none
    | d :: ds =>
      if d = '\x7d' then some (⟨name, none⟩, ds)
      else if d = ':' then
        match ds.dropWhile Text.isWordChar with
        | [] => none
        | e :: es =>
          if e = '\x7d' then some (⟨name, some (ds.takeWhile Text.isWordChar)⟩, es) else none
      else none

/-- The token at the front of a text, and the text behind it. -/
def read? : List Char → Option (Token × List Char)
  | [] => none
  | c :: cs => if c = '\x7b' then readInner? cs else none

/-- What stands behind an opening brace is the inside of the token that was read, its
    closing brace, and the rest. The token is well-formed. -/
theorem sound_of_readInner? {s rest : List Char} {t : Token} (h : readInner? s = some (t, rest)) :
    t.WellFormed ∧ s = t.name ++ typeSpelling t.type ++ '\x7d' :: rest := by
  have hword {l : List Char} : ∀ c ∈ l.takeWhile Text.isWordChar, Text.isWordChar c = true :=
    fun c hc => List.all_eq_true.mp List.all_takeWhile c hc
  have hs := List.takeWhile_append_dropWhile (p := Text.isWordChar) (l := s)
  simp only [readInner?] at h
  split at h
  · cases h
  next hne =>
    split at h
    · cases h
    next d ds hd =>
      rw [hd] at hs
      split at h
      next hclose =>
        -- The name ends at the closing brace, and there is no type.
        cases h
        subst hclose
        refine ⟨⟨hne, hword, fun _ htype => by cases htype⟩, ?_⟩
        rw [typeSpelling, List.append_nil, hs]
      next =>
        split at h
        next hcolon =>
          -- The name ends at a colon, and the type at the closing brace.
          have hds := List.takeWhile_append_dropWhile (p := Text.isWordChar) (l := ds)
          split at h
          · cases h
          next e es he =>
            rw [he] at hds
            split at h
            next hclose =>
              cases h
              subst hcolon hclose
              refine ⟨⟨hne, hword, fun _ htype => by cases htype; exact hword⟩, ?_⟩
              rw [typeSpelling, List.append_assoc, List.cons_append, hds, hs]
            next => cases h
        next => cases h

/-- A token that was read is spelled by the front of the text. -/
theorem spelling_append_of_read? {s rest : List Char} {t : Token}
    (h : read? s = some (t, rest)) : s = t.spelling ++ rest := by
  cases s with
  | nil => cases h
  | cons c cs =>
    simp only [read?] at h
    split at h
    next hopen =>
      rw [(sound_of_readInner? h).2, hopen, spelling, List.cons_append, List.append_assoc _ ['\x7d'],
        List.singleton_append]
    next => cases h

/-- What is left behind a token is shorter than the text. -/
theorem length_lt_of_read? {s rest : List Char} {t : Token}
    (h : read? s = some (t, rest)) : rest.length < s.length := by
  rw [spelling_append_of_read? h, spelling, List.cons_append, List.length_cons,
    List.length_append]
  omega

/-- A run of word characters ends at a sign that is none. -/
theorem takeWhile_append_sign {name rest : List Char} {sign : Char}
    (hname : ∀ c ∈ name, Text.isWordChar c = true) (hsign : Text.isWordChar sign = false) :
    (name ++ sign :: rest).takeWhile Text.isWordChar = name := by
  rw [List.takeWhile_append_of_pos hname, List.takeWhile_cons_of_neg (by simp [hsign]),
    List.append_nil]

/-- Behind a run of word characters the sign that ends it is left. -/
theorem dropWhile_append_sign {name rest : List Char} {sign : Char}
    (hname : ∀ c ∈ name, Text.isWordChar c = true) (hsign : Text.isWordChar sign = false) :
    (name ++ sign :: rest).dropWhile Text.isWordChar = sign :: rest := by
  rw [List.dropWhile_append_of_pos hname, List.dropWhile_cons_of_neg (by simp [hsign])]

/-- A well-formed token in front of a text is read, and the text is left. -/
theorem read?_spelling_append {t : Token} (h : t.WellFormed) {rest : List Char} :
    read? (t.spelling ++ rest) = some (t, rest) := by
  obtain ⟨name, type⟩ := t
  obtain ⟨hne, hname, htype⟩ := h
  -- Reading stops at the sign that ends the name, and that is no word character.
  cases type with
  | none =>
    have hinner : readInner? (name ++ '\x7d' :: rest) = some (⟨name, none⟩, rest) := by
      simp only [readInner?, takeWhile_append_sign hname Text.not_isWordChar_closeBrace,
        dropWhile_append_sign hname Text.not_isWordChar_closeBrace, if_neg hne, if_pos]
    simpa [spelling, typeSpelling, read?] using hinner
  | some type =>
    have htype := htype type rfl
    have hinner : readInner? (name ++ ':' :: (type ++ '\x7d' :: rest)) =
        some (⟨name, some type⟩, rest) := by
      simp only [readInner?, takeWhile_append_sign hname Text.not_isWordChar_colon,
        dropWhile_append_sign hname Text.not_isWordChar_colon,
        takeWhile_append_sign htype Text.not_isWordChar_closeBrace,
        dropWhile_append_sign htype Text.not_isWordChar_closeBrace, if_neg hne, if_pos]
      rw [if_neg (by decide)]
    simpa [spelling, typeSpelling, read?] using hinner

/-- A token that was read is well-formed. -/
theorem wellFormed_of_read? {s rest : List Char} {t : Token} (h : read? s = some (t, rest)) :
    t.WellFormed := by
  cases s with
  | nil => cases h
  | cons c cs =>
    simp only [read?] at h
    split at h
    next => exact (sound_of_readInner? h).1
    next => cases h

/-- Reading finds exactly the well-formed tokens at the front. -/
theorem read?_eq_some_iff {s rest : List Char} {t : Token} :
    read? s = some (t, rest) ↔ t.WellFormed ∧ s = t.spelling ++ rest :=
  ⟨fun h => ⟨wellFormed_of_read? h, spelling_append_of_read? h⟩,
    fun ⟨hwell, hs⟩ => hs ▸ read?_spelling_append hwell⟩

end Token

end Phrasebook
