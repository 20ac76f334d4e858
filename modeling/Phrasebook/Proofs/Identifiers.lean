import Phrasebook.Proofs.Reading
import Phrasebook.Proofs.Validation
import Phrasebook.Proofs.WordClasses

/-!
# Type Identifiers in Texts

A custom type is of use if messages can name it, and its identifier is checked for that
when the configuration is. The check admits the characters of identifiers, though, and a
text is cut at tokens made of the characters of placeholder names. So it takes both
classes for an identifier to be admitted and written: with a number that is no digit, an
identifier is admitted which no token of any text has, and with a mark, one is refused
which every text may write.

Between them the two classes leave the plain characters, and for these all is well: the
token is read behind every name, and its variable has the target of its own type.

## Main definitions

* `Token.written`: A name and an identifier as a placeholder.
* `Token.Writes`: A token can be written with an identifier behind every name.
* `Config.Admits`: Nothing is told of the identifier of a custom type.

## Theorems

* `Token.ofChars_eq_single_iff`: Which texts are a single token.
* `Token.writes_iff`: Which identifiers can be written.
* `Config.admits_iff`: Which identifiers are admitted.
* `Reading.exists_ofText_spelling`: A token alone is read if it names an argument.
* `Reading.get?_signature_of_custom`: A token with a custom type has its target.
* `Config.admits_and_writes_iff`: How the two agree.
-/

namespace Phrasebook

namespace Token

/-- A name and an identifier as a placeholder. -/
def written (name : List Char) (identifier : String) : List Char :=
  '\x7b' :: (name ++ ':' :: (identifier.toList ++ ['\x7d']))

/-- Behind every name the identifier makes a token with it, and nothing else. -/
def Writes (identifier : String) : Prop :=
  ∀ name : List Char, name ≠ [] → (∀ x ∈ name, Text.isWordChar x = true) →
    ∃ t : Token, t.name = name ∧ t.identifier? = some identifier.toList ∧
      Cutting.ofChars (written name identifier) = ⟨[([], t)], []⟩

theorem spelling_eq_written (name : List Char) (identifier : String) :
    (Token.mk name (some identifier.toList)).spelling = written name identifier := by
  rw [spelling, typeSpelling, written, List.append_assoc, List.cons_append]

theorem identifier?_eq_some_iff (t : Token) (identifier : List Char) :
    t.identifier? = some identifier ↔ t.type = some identifier ∧ identifier ≠ [] := by
  rw [identifier?, Option.filter_eq_some_iff, Bool.not_eq_true', List.isEmpty_eq_false_iff]

/-- A text is cut into a single token exactly if it is spelled by one. -/
theorem ofChars_eq_single_iff (s : List Char) (t : Token) :
    Cutting.ofChars s = ⟨[([], t)], []⟩ ↔ t.WellFormed ∧ s = t.spelling := by
  constructor
  · intro h
    have hdecomposes := Cutting.decomposes_ofChars s
    rw [h] at hdecomposes
    have hchars := hdecomposes.chars
    rw [Cutting.chars_cons, List.nil_append] at hchars
    exact ⟨hdecomposes.tokens _ List.mem_cons_self, hchars.symm.trans (List.append_nil _)⟩
  · rintro ⟨ht, rfl⟩
    -- The empty text is cut into nothing, and the token is put in front of that.
    have hnothing : (⟨[], []⟩ : Cutting).Decomposes [] :=
      (Cutting.decomposes_nil_iff [] []).mpr ⟨rfl, tokenFree_nil⟩
    have htoken := Cutting.decomposes_addToken t _ [] ht hnothing
    rw [List.append_nil] at htoken
    exact (Cutting.eq_ofChars_of_decomposes _ _ htoken).symm

theorem wellFormed_of_mem_tokensOf (text : String) (t : Token) (ht : t ∈ tokensOf text) :
    t.WellFormed := by
  rcases List.mem_map.mp ht with ⟨cut, hcut, rfl⟩
  exact (Cutting.decomposes_ofChars text.toList).tokens cut hcut

/-- An identifier can be written exactly if it has characters of names, and no others. -/
theorem writes_iff (identifier : String) :
    Writes identifier ↔
      identifier ≠ "" ∧ ∀ x ∈ identifier.toList, Text.isWordChar x = true := by
  constructor
  · intro h
    -- One name is enough, since the token shows its identifier.
    rcases h ['a'] (List.cons_ne_nil _ _) (List.all_eq_true.mp (by decide +kernel)) with
      ⟨t, -, hidentifier, hcutting⟩
    rcases (identifier?_eq_some_iff t _).mp hidentifier with ⟨htype, hne⟩
    have ht := ((ofChars_eq_single_iff _ t).mp hcutting).1
    exact ⟨fun hempty => hne (hempty ▸ rfl), ht.2.2 _ htype⟩
  · rintro ⟨hne, hword⟩ name hname hnameword
    have hchars : identifier.toList ≠ [] := fun hnil => hne (String.toList_eq_nil_iff.mp hnil)
    have ht : (Token.mk name (some identifier.toList)).WellFormed := by
      refine ⟨hname, hnameword, fun type htype => ?_⟩
      rw [← Option.some.inj htype]
      exact hword
    refine ⟨⟨name, some identifier.toList⟩, rfl,
      (identifier?_eq_some_iff _ _).mpr ⟨rfl, hchars⟩, ?_⟩
    exact (ofChars_eq_single_iff _ _).mpr ⟨ht, (spelling_eq_written name identifier).symm⟩

end Token

namespace Config

/-- Nothing is told of the identifier of a custom type. -/
def Admits (c : Config) (identifier : String) : Prop :=
  ∀ p ∈ c.problems, p.path ≠ "customTypes." ++ identifier

/-- What is told at the path of a type is told of its identifier, unless the path is that of
    a field of another type. -/
theorem eq_of_path_eq (p : Problem) (identifier : String)
    (h : p.path = "customTypes." ++ identifier) :
    p = .malformedIdentifier identifier ∨ '.' ∈ identifier.toList := by
  -- The other paths do not begin like one below the custom types.
  have hother : ∀ s : String, s.toList.head? ≠ some 'c' → s ≠ "customTypes." ++ identifier := by
    intro s hs heq
    rw [heq] at hs
    simp at hs
  -- A field is named after a dot, which the identifier would have to hold.
  have hfield : ∀ other field : String, '.' ∈ field.toList →
      "customTypes." ++ other ++ field = "customTypes." ++ identifier →
      '.' ∈ identifier.toList := by
    intro other field hdot heq
    have hchars := congrArg String.toList heq
    rw [String.append_assoc, String.toList_append, String.toList_append, String.toList_append]
      at hchars
    rw [← List.append_cancel_left hchars]
    exact List.mem_append_right _ hdot
  cases p with
  | noLanguages => exact absurd h (hother _ (by simp [Problem.path]))
  | malformedLanguage index language => exact absurd h (hother _ (by simp [Problem.path]))
  | repeatedLanguage index language => exact absurd h (hother _ (by simp [Problem.path]))
  | sharedConstant index language earlier => exact absurd h (hother _ (by simp [Problem.path]))
  | unlistedDefault language => exact absurd h (hother _ (by simp [Problem.path]))
  | emptySuffix => exact absurd h (hother _ (by simp [Problem.path]))
  | malformedIdentifier other =>
      have hchars := congrArg String.toList h
      rw [Problem.path, String.toList_append, String.toList_append] at hchars
      rw [String.toList_inj.mp (List.append_cancel_left hchars)]
      exact Or.inl rfl
  | blankTarget other => exact Or.inr (hfield other ".targetType" (by decide) h)
  | malformedTemplate other template => exact Or.inr (hfield other ".template" (by decide) h)

/-- The identifier of a custom type is admitted exactly if it has characters of
    identifiers, and no others. -/
theorem admits_iff (c : Config) (identifier : String) (type : CustomType)
    (htype : c.customTypes.get? identifier = some type) :
    c.Admits identifier ↔ IsTypeName identifier := by
  have hwrong : ∀ path p, Misconfigured c path p → p = .malformedIdentifier identifier →
      ¬ IsTypeName identifier := by
    intro path p hp heq
    cases hp with
    | malformedIdentifier other type htype hnot =>
        cases heq
        exact hnot
    | _ => cases heq
  constructor
  · intro h
    by_contra hname
    rcases mem_of_misconfigured c _ _ (.malformedIdentifier identifier type htype hname) with
      ⟨hp, hpath⟩
    exact h _ hp hpath
  · intro hname p hp hpath
    rcases eq_of_path_eq p identifier hpath with rfl | hdot
    · exact hwrong _ _ (misconfigured_of_mem c _ hp) rfl hname
    · -- The path of a field has a dot, and an identifier has none.
      have hcharacter := hname.2 '.' hdot
      revert hcharacter
      decide +kernel

end Config

namespace Reading

/-- A token alone is read if it names an argument, and gives its variable the type of
    that. -/
theorem exists_ofText_spelling (types : Dict CustomType) (t : Token) (a : Argument)
    (ht : t.WellFormed) (hnames : Part.Names types t a) :
    ∃ r, ofText types (String.ofList t.spelling) = .ok r ∧
      r.signature.get? (String.ofList t.name) = some a.typeName := by
  have hcutting : Cutting.ofChars (String.ofList t.spelling).toList = ⟨[([], t)], []⟩ :=
    (t.ofChars_eq_single_iff _).mpr ⟨ht, String.toList_ofList⟩
  have hoccurrence : (⟨[([], t)], []⟩ : Cutting).occurrences =
      [⟨[], t, (t.spelling ++ []).drop (0 + t.spelling.length)⟩] := by
    simp [Cutting.occurrences, Cutting.occurrencesFrom, Cutting.chars, Cutting.charsOf]
  let r : Reading := ⟨Dict.ofList [(String.ofList t.spelling, a)], phraseOf [([], a)] []⟩
  refine ⟨r, (ofText_eq_ok_iff types _ r).mpr ⟨[a], ?_, ?_, rfl, rfl, ?_⟩, ?_⟩
  · rw [hcutting, hoccurrence, Fallible.mapM_eq_ok_iff]
    refine List.Forall₂.cons ?_ List.Forall₂.nil
    -- In front of the token there is nothing, and so no brace.
    rw [argumentOf, if_neg (by simp [Occurrence.isWrapped, Occurrence.reaches])]
    exact hnames
  · rw [hcutting]
    rfl
  · rw [hcutting]
    rfl
  · have hsignature : r.signature = Dict.empty.insert a.variableName a.typeName := rfl
    rw [hsignature, Dict.get?_insert,
      if_pos (Argument.variableName_of_resolve types _ _ a hnames).symm]

/-- A token with the identifier of a custom type gives its variable the target of that
    type. -/
theorem get?_signature_of_custom (types : Dict CustomType) (text : String) (r : Reading)
    (h : ofText types text = .ok r) (t : Token) (ht : t ∈ tokensOf text) (type : CustomType)
    (htype : types.get? t.typeIdentifier = some type) :
    r.signature.get? (String.ofList t.name) = some type.target := by
  rcases parts_of_ofText types text r h with
    ⟨parts, tail, hcutting, hnames, -, htable, hsize, hconflict⟩
  rw [tokensOf_eq text parts tail hcutting] at ht
  rcases List.mem_map.mp ht with ⟨p, hp, rfl⟩
  rw [get?_signature_iff types parts r hnames htable hsize hconflict]
  refine ⟨p, hp, rfl, ?_⟩
  -- An identifier the table knows is resolved by the table.
  have hargument := hnames p hp
  rw [Part.Names, Argument.resolve, htype] at hargument
  rw [← Except.ok.inj hargument]
  rfl

end Reading

namespace Config

/-- No token of a text has an identifier that cannot be written. -/
theorem identifier?_ne_of_not_writes (identifier : String) (hne : identifier ≠ "")
    (h : ¬ Token.Writes identifier) (text : String) (t : Token) (ht : t ∈ tokensOf text) :
    t.identifier? ≠ some identifier.toList := by
  intro hidentifier
  have htype := ((t.identifier?_eq_some_iff _).mp hidentifier).1
  have hword := (t.wellFormed_of_mem_tokensOf text ht).2.2 _ htype
  exact h ((Token.writes_iff identifier).mpr ⟨hne, hword⟩)

/-- A custom type whose identifier can be written is read behind every name, with its own
    target. -/
theorem exists_ofText_written (types : Dict CustomType) (identifier : String)
    (type : CustomType) (htype : types.get? identifier = some type)
    (hwrites : Token.Writes identifier) (name : List Char) (hname : name ≠ [])
    (hword : ∀ x ∈ name, Text.isWordChar x = true) :
    ∃ r, Reading.ofText types (String.ofList (Token.written name identifier)) = .ok r ∧
      r.signature.get? (String.ofList name) = some type.target := by
  rcases hwrites name hname hword with ⟨t, rfl, hidentifier, hcutting⟩
  rcases (t.ofChars_eq_single_iff _).mp hcutting with ⟨ht, hspelling⟩
  -- The only token of the text, and it resolves to the custom type.
  have hnames : Part.Names types t (.ofCustomType (String.ofList t.name) type) := by
    rw [Part.Names, Token.typeIdentifier, hidentifier, Option.map_some, Option.getD_some,
      String.ofList_toList, Argument.resolve, htype]
  rw [hspelling]
  exact Reading.exists_ofText_spelling types t _ ht hnames

/-- Validation and the grammar of placeholders differ in the identifiers of types that they
    take. An identifier is admitted exactly if it is made of the characters of identifiers,
    and can be written exactly if it is made of those of names, so both hold exactly of
    identifiers with plain characters. A token of a text that was read has the target of the
    custom type that it names. Of the custom types of a valid configuration, one with a plain
    identifier can be named behind every name, and the others are named by no token of any
    text. -/
theorem admits_and_writes_iff (c : Config) (identifier : String) (type : CustomType)
    (htype : c.customTypes.get? identifier = some type) :
    (c.Admits identifier ↔
      identifier ≠ "" ∧ ∀ x ∈ identifier.toList, Text.isIdentifierChar x = true) ∧
    (Token.Writes identifier ↔
      identifier ≠ "" ∧ ∀ x ∈ identifier.toList, Text.isWordChar x = true) ∧
    (c.Admits identifier ∧ Token.Writes identifier ↔
      identifier ≠ "" ∧ ∀ x ∈ identifier.toList, Text.isPlainChar x = true) ∧
    (∀ text r, Reading.ofText c.customTypes text = .ok r → ∀ t ∈ tokensOf text,
      t.identifier? = some identifier.toList →
        r.signature.get? (String.ofList t.name) = some type.target) ∧
    (c.Valid → (∀ x ∈ identifier.toList, Text.isPlainChar x = true) →
      ∀ name : List Char, name ≠ [] → (∀ x ∈ name, Text.isWordChar x = true) →
        ∃ r, Reading.ofText c.customTypes (String.ofList (Token.written name identifier)) = .ok r ∧
          r.signature.get? (String.ofList name) = some type.target) ∧
    (c.Valid → ∀ x ∈ identifier.toList, Text.isPlainChar x = false →
      ∀ text, ∀ t ∈ tokensOf text, t.identifier? ≠ some identifier.toList) := by
  have hadmits := admits_iff c identifier type htype
  have hwrites := Token.writes_iff identifier
  have hboth : c.Admits identifier ∧ Token.Writes identifier ↔
      identifier ≠ "" ∧ ∀ x ∈ identifier.toList, Text.isPlainChar x = true := by
    rw [hadmits, hwrites, IsTypeName, ← and_and_left]
    simp only [Text.isPlainChar_iff, and_comm, forall₂_and]
  -- What is valid has nothing told of any identifier.
  have hvalid : c.Valid → IsTypeName identifier := fun hc =>
    (((valid_iff_sound c).mp hc).types identifier type htype).1
  refine ⟨hadmits, hwrites, hboth, ?_, ?_, ?_⟩
  · intro text r hr t ht hidentifier
    refine Reading.get?_signature_of_custom c.customTypes text r hr t ht type ?_
    rw [Token.typeIdentifier, hidentifier, Option.map_some, Option.getD_some, String.ofList_toList]
    exact htype
  · intro hc hplain
    have hwrite := (hboth.mpr ⟨(hvalid hc).1, hplain⟩).2
    exact exists_ofText_written c.customTypes identifier type htype hwrite
  · intro hc x hx hplain
    refine identifier?_ne_of_not_writes identifier (hvalid hc).1 (fun hwrite => ?_)
    have hall := (hboth.mp ⟨hadmits.mpr (hvalid hc), hwrite⟩).2 x hx
    rw [hplain] at hall
    cases hall

/-- The custom type of a new project is named behind every name. -/
theorem admits_and_writes_mention :
    default.customTypes.get? "Mention" = some ⟨"Long", "<@\x7bvar\x7d>"⟩ ∧
      default.Admits "Mention" ∧ Token.Writes "Mention" := by
  have htype : default.customTypes.get? "Mention" = some ⟨"Long", "<@\x7bvar\x7d>"⟩ := by
    decide +kernel
  refine ⟨htype, (admits_and_writes_iff default "Mention" _ htype).2.2.1.mpr ⟨by decide, ?_⟩⟩
  exact List.all_eq_true.mp (by decide +kernel)

/-- Of these identifiers one is admitted and cannot be written, and the other can be
    written and is not admitted. -/
example : isIdentifier "½" = true ∧ ¬ Token.Writes "½" ∧
    isIdentifier "e\u0301" = false ∧ Token.Writes "e\u0301" := by
  simp only [Token.writes_iff, ← List.all_eq_true]
  decide +kernel

end Config

end Phrasebook
