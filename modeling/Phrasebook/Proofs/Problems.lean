import Mathlib.Data.List.Dedup
import Mathlib.Data.List.DropRight
import Mathlib.Data.List.Nodup
import Mathlib.Data.List.TakeWhile
import Phrasebook.Config.Validation
import Phrasebook.Proofs.Dict
import Phrasebook.Proofs.Template

/-!
# What Is Wrong with a Configuration

The conditions on a configuration, said apart from the code that checks them: a list of
rules for what is wrong with it and in which field, and a structure of what has to hold
for nothing to be wrong. The validation tells exactly what the rules say.

The languages are the one field in which this takes an argument. They are checked in one
walk, with a list of the different languages before. That list is a function of the
languages in front, so every step of the walk is a function of them too, and what is told
of a language needs no more than the languages in front of it.

## Main definitions

* `Config.introduced`: The languages of a list, each where it stands first.
* `Config.problemsOf`, `Config.problemsAt`: What is told of one language, by the different
  languages before and by all languages in front.
* `Config.Misconfigured`: What is wrong with a configuration, and in which field.
* `Config.Sound`: A configuration with which nothing is wrong.

## Theorems

* `Config.mem_languageProblems_iff`: What is told of the languages.
* `Config.clash?_eq_some_iff`: Which clash of a language is told.
* `Config.misconfigured_of_mem`: What is told of a configuration is wrong with it.
* `Config.mem_of_misconfigured`: What is wrong with a configuration is told.
* `Config.valid_iff_sound`: Nothing is told exactly if nothing is wrong.
-/

namespace Phrasebook

/-- A text is trimmed to nothing if it has blanks only. -/
theorem Text.trim_eq_nil_iff (s : List Char) : trim s = [] ↔ ∀ x ∈ s, isBlank x = true := by
  have htrim : trim s = List.rdropWhile isBlank (s.dropWhile isBlank) := rfl
  rw [htrim, List.rdropWhile_eq_nil_iff]
  constructor
  · intro h
    -- What is left at the front would start with a character that is no blank.
    have hleft : s.dropWhile isBlank = [] := by
      by_contra hne
      have hhead := List.head_dropWhile_not isBlank hne
      rw [h _ (List.head_mem hne)] at hhead
      cases hhead
    exact List.dropWhile_eq_nil_iff.mp hleft
  · intro h x hx
    exact h x ((List.dropWhile_sublist _).mem hx)

namespace Config

/-- A language has a name of letters, numbers, `_` and `-`. -/
def IsLanguageName (language : String) : Prop :=
  language ≠ "" ∧ ∀ x ∈ language.toList, Text.isIdentifierChar x = true ∨ x = '-'

/-- A type has a name of letters, numbers and `_`. -/
def IsTypeName (identifier : String) : Prop :=
  identifier ≠ "" ∧ ∀ x ∈ identifier.toList, Text.isIdentifierChar x = true

theorem isLanguage_iff (language : String) :
    isLanguage language = true ↔ IsLanguageName language := by
  simp only [isLanguage, IsLanguageName, Bool.and_eq_true, Bool.not_eq_true', List.all_eq_true,
    Bool.or_eq_true, beq_iff_eq, ne_eq, ← String.isEmpty_iff, Bool.not_eq_true]

instance (language : String) : Decidable (IsLanguageName language) :=
  decidable_of_iff _ (isLanguage_iff language)

theorem isIdentifier_iff (identifier : String) :
    isIdentifier identifier = true ↔ IsTypeName identifier := by
  simp only [isIdentifier, IsTypeName, Bool.and_eq_true, Bool.not_eq_true', List.all_eq_true,
    ne_eq, ← String.isEmpty_iff, Bool.not_eq_true]

/-- The languages of a list, each where it stands first, the last of these in front. -/
def introduced (languages : List String) : List String := languages.reverse.dedup

theorem mem_introduced_iff (languages : List String) (language : String) :
    language ∈ introduced languages ↔ language ∈ languages := by
  rw [introduced, List.mem_dedup, List.mem_reverse]

theorem introduced_concat (front : List String) (language : String) :
    introduced (front ++ [language]) =
      if language ∈ front then introduced front else language :: introduced front := by
  rw [introduced, List.reverse_append, List.reverse_singleton, List.singleton_append]
  by_cases hmem : language ∈ front
  · rw [if_pos hmem, List.dedup_cons_of_mem (List.mem_reverse.mpr hmem), introduced]
  · rw [if_neg hmem, List.dedup_cons_of_notMem (fun h => hmem (List.mem_reverse.mp h)), introduced]

/-- What is told of a language at a position, where `earlier` are the different languages
    before. -/
def problemsOf (index : Nat) (earlier : List LocaleConstant) (language : LocaleConstant) :
    List Problem :=
  (if isLanguage language.locale then [] else [.malformedLanguage index language.locale]) ++
    (clash? index earlier language).toList

/-- What is wrong with a language behind others. -/
def problemsAt (front : List String) (language : String) : List Problem :=
  problemsOf front.length ((introduced front).map .ofLocale) (.ofLocale language)

theorem languageProblems_cons (index : Nat) (earlier : List LocaleConstant)
    (language : LocaleConstant) (languages : List LocaleConstant) :
    languageProblems index earlier (language :: languages) =
      problemsOf index earlier language ++ languageProblems (index + 1)
        (if language ∈ earlier then earlier else language :: earlier) languages := rfl

/-- What is told of a language is that its name is malformed, or a clash. -/
theorem mem_problemsOf_iff (index : Nat) (earlier : List LocaleConstant)
    (language : LocaleConstant) (p : Problem) :
    p ∈ problemsOf index earlier language ↔
      (¬ IsLanguageName language.locale ∧ p = .malformedLanguage index language.locale) ∨
      clash? index earlier language = some p := by
  rw [problemsOf, List.mem_append, Option.mem_toList, List.mem_ite_nil_left, List.mem_singleton,
    isLanguage_iff]

theorem ofLocale_mem_iff (languages : List String) (language : String) :
    LocaleConstant.ofLocale language ∈ (introduced languages).map .ofLocale ↔
      language ∈ languages := by
  rw [← mem_introduced_iff, List.mem_map]
  constructor
  · rintro ⟨other, hother, heq⟩
    have hsame : other = language := congrArg LocaleConstant.locale heq
    exact hsame ▸ hother
  · intro hmem
    exact ⟨language, hmem, rfl⟩

/-- One step of the walk over the languages: what is told of the first, and of the others
    with the first in front. -/
theorem languageProblems_map_cons (front : List String) (language : String) (rest : List String) :
    languageProblems front.length ((introduced front).map .ofLocale)
        ((language :: rest).map .ofLocale) =
      problemsAt front language ++
        languageProblems (front ++ [language]).length
          ((introduced (front ++ [language])).map .ofLocale) (rest.map .ofLocale) := by
  -- The constants already seen are those of the languages that introduce one.
  have hearlier : (if LocaleConstant.ofLocale language ∈ (introduced front).map .ofLocale then
      (introduced front).map LocaleConstant.ofLocale
      else .ofLocale language :: (introduced front).map .ofLocale) =
      (introduced (front ++ [language])).map .ofLocale := by
    rw [introduced_concat]
    by_cases hmem : language ∈ front
    · rw [if_pos hmem, if_pos ((ofLocale_mem_iff front language).mpr hmem)]
    · rw [if_neg hmem, if_neg (fun h => hmem ((ofLocale_mem_iff front language).mp h)),
        List.map_cons]
  rw [List.map_cons, languageProblems_cons, hearlier, List.length_append, List.length_singleton,
    problemsAt]

/-- What is told of languages behind others is what is wrong with each of them, behind those
    in front of it. -/
theorem mem_languageProblems_iff (front rest : List String) (p : Problem) :
    p ∈ languageProblems front.length ((introduced front).map .ofLocale) (rest.map .ofLocale) ↔
      ∃ before language after, rest = before ++ language :: after ∧
        p ∈ problemsAt (front ++ before) language := by
  -- The languages in front grow as the walk goes on, so they are not fixed.
  induction rest generalizing front with
  | nil =>
      constructor
      · intro h
        exact absurd h List.not_mem_nil
      · rintro ⟨before, language, after, hsplit, -⟩
        exact absurd (List.append_eq_nil_iff.mp hsplit.symm).2 (List.cons_ne_nil _ _)
  | cons first rest ih =>
      rw [languageProblems_map_cons, List.mem_append, ih]
      constructor
      · rintro (hfirst | ⟨before, language, after, rfl, hlater⟩)
        · exact ⟨[], first, rest, rfl, by rw [List.append_nil]; exact hfirst⟩
        · refine ⟨first :: before, language, after, rfl, ?_⟩
          rw [List.append_assoc] at hlater
          exact hlater
      · rintro ⟨before, language, after, hsplit, hp⟩
        cases before with
        | nil =>
            cases hsplit
            rw [List.append_nil] at hp
            exact Or.inl hp
        | cons x before =>
            cases hsplit
            refine Or.inr ⟨before, language, after, rfl, ?_⟩
            rw [List.append_assoc]
            exact hp

/-- The clash of a language with those in front of it: the language is listed before, or else
    its constant is that of one that was, and then the last such is named. -/
theorem clash?_eq_some_iff (index : Nat) (front : List String) (language : String) (p : Problem) :
    clash? index ((introduced front).map .ofLocale) (.ofLocale language) = some p ↔
      (language ∈ front ∧ p = .repeatedLanguage index language) ∨
      (language ∉ front ∧ ∃ newer earlier older, introduced front = newer ++ earlier :: older ∧
        Locale.constant earlier = Locale.constant language ∧
        (∀ l ∈ newer, Locale.constant l ≠ Locale.constant language) ∧
        p = .sharedConstant index language earlier) := by
  rw [clash?]
  by_cases hmem : language ∈ front
  · rw [if_pos ((ofLocale_mem_iff front language).mpr hmem), Option.some.injEq]
    simp only [hmem, true_and, not_true_eq_false, false_and, or_false]
    exact eq_comm
  · rw [if_neg (fun h => hmem ((ofLocale_mem_iff front language).mp h))]
    simp only [hmem, false_and, false_or, not_false_eq_true, true_and]
    -- The list has the last language first, so what is found in it is the last clash.
    have hlast := fun last => @List.find?_eq_some_iff_append LocaleConstant last
      (fun other => other.constant = (LocaleConstant.ofLocale language).constant)
      ((introduced front).map .ofLocale)
    constructor
    · intro h
      split at h
      · next other hother =>
          rcases (hlast other).mp hother with ⟨hsame, newer, older, hsplit, hnewer⟩
          rcases List.map_eq_append_iff.mp hsplit with ⟨newer, rest, hfront, rfl, hrest⟩
          rcases List.map_eq_cons_iff.mp hrest with ⟨earlier, older, rfl, rfl, rfl⟩
          refine ⟨newer, earlier, older, hfront, of_decide_eq_true hsame, fun l hl heq => ?_,
            (Option.some.inj h).symm⟩
          have hl := hnewer _ (List.mem_map_of_mem hl)
          rw [Bool.not_eq_true', decide_eq_false_iff_not] at hl
          exact hl heq
      · cases h
    · rintro ⟨newer, earlier, older, hfront, hsame, hnewer, rfl⟩
      have hother := (hlast (.ofLocale earlier)).mpr ⟨decide_eq_true hsame,
        newer.map .ofLocale, older.map .ofLocale, by rw [hfront, List.map_append, List.map_cons], ?_⟩
      · rw [hother]
        rfl
      · intro other hin
        rcases List.mem_map.mp hin with ⟨l, hl, rfl⟩
        rw [Bool.not_eq_true', decide_eq_false_iff_not]
        exact hnewer l hl

/-- What is wrong with a configuration, with the field in which it is. -/
inductive Misconfigured (c : Config) : String → Problem → Prop
  | noLanguages (h : c.languages = []) : Misconfigured c "languages" .noLanguages
  | malformedLanguage (front back : List String) (language : String)
      (hsplit : c.languages = front ++ language :: back) (h : ¬ IsLanguageName language) :
      Misconfigured c ("languages[" ++ toString front.length ++ "]")
        (.malformedLanguage front.length language)
  | repeatedLanguage (front back : List String) (language : String)
      (hsplit : c.languages = front ++ language :: back) (h : language ∈ front) :
      Misconfigured c ("languages[" ++ toString front.length ++ "]")
        (.repeatedLanguage front.length language)
  | sharedConstant (front back newer older : List String) (language earlier : String)
      (hsplit : c.languages = front ++ language :: back) (hnew : language ∉ front)
      (hfront : introduced front = newer ++ earlier :: older)
      (hsame : Locale.constant earlier = Locale.constant language)
      (hnewer : ∀ l ∈ newer, Locale.constant l ≠ Locale.constant language) :
      Misconfigured c ("languages[" ++ toString front.length ++ "]")
        (.sharedConstant front.length language earlier)
  | unlistedDefault (hlanguages : c.languages ≠ []) (h : c.defaultLanguage ∉ c.languages) :
      Misconfigured c "defaultLanguage" (.unlistedDefault c.defaultLanguage)
  | emptySuffix (h : c.nestedSuffix = some "") : Misconfigured c "nestedSuffix" .emptySuffix
  | malformedIdentifier (identifier : String) (type : CustomType)
      (htype : c.customTypes.get? identifier = some type) (h : ¬ IsTypeName identifier) :
      Misconfigured c ("customTypes." ++ identifier) (.malformedIdentifier identifier)
  | blankTarget (identifier : String) (type : CustomType)
      (htype : c.customTypes.get? identifier = some type)
      (h : ∀ x ∈ type.target.toList, Text.isBlank x = true) :
      Misconfigured c ("customTypes." ++ identifier ++ ".targetType") (.blankTarget identifier)
  | malformedTemplate (identifier : String) (type : CustomType)
      (htype : c.customTypes.get? identifier = some type)
      (h : ¬ Text.OccursOnce Template.marker.toList type.template.toList) :
      Misconfigured c ("customTypes." ++ identifier ++ ".template")
        (.malformedTemplate identifier type.template)

/-- A configuration with which nothing is wrong. -/
structure Sound (c : Config) : Prop where
  named : c.languages ≠ []
  languages : ∀ language ∈ c.languages, IsLanguageName language
  constants : (c.languages.map Locale.constant).Nodup
  listed : c.defaultLanguage ∈ c.languages
  suffix : c.nestedSuffix ≠ some ""
  types : ∀ identifier type, c.customTypes.get? identifier = some type →
    IsTypeName identifier ∧ (∃ x ∈ type.target.toList, Text.isBlank x = false) ∧
      Text.OccursOnce Template.marker.toList type.template.toList

/-- What is wrong with a language is that its name is malformed, or a clash. -/
theorem mem_problemsAt_iff (front : List String) (language : String) (p : Problem) :
    p ∈ problemsAt front language ↔
      (¬ IsLanguageName language ∧ p = .malformedLanguage front.length language) ∨
      clash? front.length ((introduced front).map .ofLocale) (.ofLocale language) = some p :=
  mem_problemsOf_iff front.length _ (.ofLocale language) p

theorem mem_typeProblems_iff (identifier : String) (type : CustomType) (p : Problem) :
    p ∈ typeProblems identifier type ↔
      (¬ IsTypeName identifier ∧ p = .malformedIdentifier identifier) ∨
      ((∀ x ∈ type.target.toList, Text.isBlank x = true) ∧ p = .blankTarget identifier) ∨
      (¬ Text.OccursOnce Template.marker.toList type.template.toList ∧
        p = .malformedTemplate identifier type.template) := by
  -- Each check is read as the rule it stands for.
  rw [typeProblems, List.mem_append, List.mem_append, List.mem_ite_nil_left,
    List.mem_ite_nil_right, List.mem_ite_nil_left, List.mem_singleton, List.mem_singleton,
    List.mem_singleton, isIdentifier_iff, Text.trim_eq_nil_iff, Template.isSome_ofString?_iff,
    or_assoc]

theorem mem_defaultProblems_iff (c : Config) (p : Problem) :
    p ∈ c.defaultProblems ↔ (c.languages ≠ [] ∧ c.defaultLanguage ∉ c.languages) ∧
      p = .unlistedDefault c.defaultLanguage := by
  rw [defaultProblems, List.mem_ite_nil_left, List.mem_singleton, not_or]

/-- The problems of a configuration, by the fields that they are found in. -/
theorem mem_problems_iff (c : Config) (p : Problem) :
    p ∈ c.problems ↔
      (c.languages = [] ∧ p = .noLanguages) ∨
      (∃ front language back, c.languages = front ++ language :: back ∧
        p ∈ problemsAt front language) ∨
      ((c.languages ≠ [] ∧ c.defaultLanguage ∉ c.languages) ∧
        p = .unlistedDefault c.defaultLanguage) ∨
      (c.nestedSuffix = some "" ∧ p = .emptySuffix) ∨
      ∃ identifier type, c.customTypes.get? identifier = some type ∧
        p ∈ typeProblems identifier type := by
  have hlanguages := mem_languageProblems_iff [] c.languages p
  simp only [List.nil_append] at hlanguages
  rw [← hlanguages, ← mem_defaultProblems_iff, problems, List.mem_append, List.mem_append,
    List.mem_append, List.mem_append, List.mem_ite_nil_right, List.mem_singleton,
    List.mem_ite_nil_right, List.mem_singleton, List.mem_flatMap, or_assoc, or_assoc, or_assoc]
  simp only [Prod.exists, Dict.mem_pairs_iff]
  rfl

/-- Whatever is told of a configuration is wrong with it. -/
theorem misconfigured_of_mem (c : Config) (p : Problem) (h : p ∈ c.problems) :
    Misconfigured c p.path p := by
  -- One case for each check that reports something.
  rcases (mem_problems_iff c p).mp h with ⟨hnone, rfl⟩ | ⟨front, language, back, hsplit, hp⟩ |
    ⟨⟨hsome, hdefault⟩, rfl⟩ | ⟨hsuffix, rfl⟩ | ⟨identifier, type, htype, hp⟩
  · exact .noLanguages hnone
  · rcases (mem_problemsAt_iff _ _ _).mp hp with ⟨hname, rfl⟩ | hclash
    · exact .malformedLanguage front back language hsplit hname
    · rcases (clash?_eq_some_iff _ _ _ _).mp hclash with
        ⟨hrepeated, rfl⟩ | ⟨hnew, newer, earlier, older, hfront, hsame, hnewer, rfl⟩
      · exact .repeatedLanguage front back language hsplit hrepeated
      · exact .sharedConstant front back newer older language earlier hsplit hnew hfront hsame
          hnewer
  · exact .unlistedDefault hsome hdefault
  · exact .emptySuffix hsuffix
  · rcases (mem_typeProblems_iff _ _ _).mp hp with ⟨hname, rfl⟩ | ⟨hblank, rfl⟩ | ⟨hmarker, rfl⟩
    · exact .malformedIdentifier identifier type htype hname
    · exact .blankTarget identifier type htype hblank
    · exact .malformedTemplate identifier type htype hmarker

/-- Whatever is wrong with a configuration is told of it, at its field. -/
theorem mem_of_misconfigured (c : Config) (path : String) (p : Problem)
    (h : Misconfigured c path p) : p ∈ c.problems ∧ p.path = path := by
  rw [mem_problems_iff]
  cases h with
  | noLanguages hnone => exact ⟨Or.inl ⟨hnone, rfl⟩, rfl⟩
  | malformedLanguage front back language hsplit hname =>
      refine ⟨Or.inr (Or.inl ⟨front, language, back, hsplit, ?_⟩), rfl⟩
      exact (mem_problemsAt_iff _ _ _).mpr (Or.inl ⟨hname, rfl⟩)
  | repeatedLanguage front back language hsplit hrepeated =>
      refine ⟨Or.inr (Or.inl ⟨front, language, back, hsplit, ?_⟩), rfl⟩
      exact (mem_problemsAt_iff _ _ _).mpr (Or.inr ((clash?_eq_some_iff _ _ _ _).mpr
        (Or.inl ⟨hrepeated, rfl⟩)))
  -- A language met before is reported as repeated, so the clash needs a new one.
  | sharedConstant front back newer older language earlier hsplit hnew hfront hsame hnewer =>
      refine ⟨Or.inr (Or.inl ⟨front, language, back, hsplit, ?_⟩), rfl⟩
      exact (mem_problemsAt_iff _ _ _).mpr (Or.inr ((clash?_eq_some_iff _ _ _ _).mpr
        (Or.inr ⟨hnew, newer, earlier, older, hfront, hsame, hnewer, rfl⟩)))
  | unlistedDefault hsome hdefault =>
      exact ⟨Or.inr (Or.inr (Or.inl ⟨⟨hsome, hdefault⟩, rfl⟩)), rfl⟩
  | emptySuffix hsuffix => exact ⟨Or.inr (Or.inr (Or.inr (Or.inl ⟨hsuffix, rfl⟩))), rfl⟩
  | malformedIdentifier identifier type htype hname =>
      refine ⟨Or.inr (Or.inr (Or.inr (Or.inr ⟨identifier, type, htype, ?_⟩))), rfl⟩
      exact (mem_typeProblems_iff _ _ _).mpr (Or.inl ⟨hname, rfl⟩)
  | blankTarget identifier type htype hblank =>
      refine ⟨Or.inr (Or.inr (Or.inr (Or.inr ⟨identifier, type, htype, ?_⟩))), rfl⟩
      exact (mem_typeProblems_iff _ _ _).mpr (Or.inr (Or.inl ⟨hblank, rfl⟩))
  | malformedTemplate identifier type htype hmarker =>
      refine ⟨Or.inr (Or.inr (Or.inr (Or.inr ⟨identifier, type, htype, ?_⟩))), rfl⟩
      exact (mem_typeProblems_iff _ _ _).mpr (Or.inr (Or.inr ⟨hmarker, rfl⟩))

/-- A language does not clash with earlier ones exactly if its constant is none of
    theirs. -/
theorem clash?_eq_none_iff (index : Nat) (earlier : List LocaleConstant)
    (language : LocaleConstant) :
    clash? index earlier language = none ↔
      ∀ other ∈ earlier, other.constant ≠ language.constant := by
  rw [clash?]
  by_cases hmem : language ∈ earlier
  · rw [if_pos hmem]
    constructor
    · intro h
      cases h
    · intro h
      -- A constant that was seen before clashes with itself.
      exact absurd rfl (h language hmem)
  · rw [if_neg hmem]
    cases hfind : earlier.find? (fun other => other.constant = language.constant) with
    | some other =>
        constructor
        · intro h
          cases h
        · intro h
          have hconstant := List.find?_some hfind
          exact absurd (of_decide_eq_true hconstant) (h other (List.mem_of_find?_eq_some hfind))
    | none =>
        refine ⟨fun _ other hother heq => ?_, fun _ => rfl⟩
        have hnone := List.find?_eq_none.mp hfind other hother
        exact hnone (decide_eq_true heq)

theorem clash?_introduced_eq_none_iff (index : Nat) (front : List String) (language : String) :
    clash? index ((introduced front).map .ofLocale) (.ofLocale language) = none ↔
      ∀ other ∈ front, Locale.constant other ≠ Locale.constant language := by
  rw [clash?_eq_none_iff, List.forall_mem_map]
  simp only [mem_introduced_iff]
  rfl

/-- Images differ exactly if none of them is the image of an element in front. -/
theorem nodup_map_iff {α β : Type} (f : α → β) (xs : List α) :
    (xs.map f).Nodup ↔ ∀ front x back, xs = front ++ x :: back → ∀ y ∈ front, f y ≠ f x := by
  constructor
  · rintro hnodup front x back rfl y hy
    rw [List.map_append, List.map_cons, List.nodup_append] at hnodup
    exact hnodup.2.2 _ (List.mem_map_of_mem hy) _ List.mem_cons_self
  · intro h
    -- From the right: the last element is the one compared with all before it.
    induction xs using List.reverseRecOn with
    | nil => exact List.nodup_nil
    | append_singleton xs x ih =>
        rw [List.map_append, List.map_singleton, List.nodup_append]
        refine ⟨ih (fun front y back hsplit => ?_), List.nodup_singleton _, ?_⟩
        · exact h front y (back ++ [x]) (by rw [hsplit, List.append_assoc, List.cons_append])
        · intro image himage last hlast
          rcases List.mem_map.mp himage with ⟨y, hy, rfl⟩
          rw [List.mem_singleton.mp hlast]
          exact h xs x [] rfl y hy

/-- Nothing is told of a configuration exactly if nothing is wrong with it. -/
theorem valid_iff_sound (c : Config) : c.Valid ↔ Sound c := by
  have hvalid : c.Valid ↔ ∀ path p, ¬ Misconfigured c path p := by
    rw [Valid, List.eq_nil_iff_forall_not_mem]
    constructor
    · intro h path p hp
      exact h p (mem_of_misconfigured c path p hp).1
    · intro h p hp
      exact h p.path p (misconfigured_of_mem c p hp)
  rw [hvalid]
  constructor
  · -- Whatever failed would be a case of the rules.
    intro h
    refine ⟨fun hnone => h _ _ (.noLanguages hnone), ?_, ?_, ?_,
      fun hsuffix => h _ _ (.emptySuffix hsuffix), ?_⟩
    · intro language hlanguage
      rcases List.append_of_mem hlanguage with ⟨front, back, hsplit⟩
      by_contra hname
      exact h _ _ (.malformedLanguage front back language hsplit hname)
    · -- A constant that is not new makes a clash of some kind, and it does not matter which.
      rw [nodup_map_iff]
      intro front language back hsplit
      rw [← clash?_introduced_eq_none_iff front.length, Option.eq_none_iff_forall_ne_some]
      intro p hclash
      have hp := (mem_problemsAt_iff front language p).mpr (Or.inr hclash)
      exact h _ _ (misconfigured_of_mem c p ((mem_problems_iff c p).mpr
        (Or.inr (Or.inl ⟨front, language, back, hsplit, hp⟩))))
    · by_contra hdefault
      exact h _ _ (.unlistedDefault (fun hnone => h _ _ (.noLanguages hnone)) hdefault)
    · intro identifier type htype
      refine ⟨?_, ?_, ?_⟩
      · by_contra hname
        exact h _ _ (.malformedIdentifier identifier type htype hname)
      · by_contra hblank
        refine h _ _ (.blankTarget identifier type htype (fun x hx => ?_))
        by_contra hnot
        exact hblank ⟨x, hx, Bool.not_eq_true _ ▸ hnot⟩
      · by_contra hmarker
        exact h _ _ (.malformedTemplate identifier type htype hmarker)
  · -- Each rule contradicts one of the conditions.
    intro h path p hp
    cases hp with
    | noLanguages hnone => exact h.named hnone
    | malformedLanguage front back language hsplit hname =>
        exact hname (h.languages language (hsplit ▸ List.mem_append_right front List.mem_cons_self))
    | repeatedLanguage front back language hsplit hrepeated =>
        exact (nodup_map_iff _ _).mp h.constants front language back hsplit language hrepeated rfl
    | sharedConstant front back newer older language earlier hsplit hnew hfront hsame hnewer =>
        have hearlier : earlier ∈ front := by
          rw [← mem_introduced_iff, hfront]
          exact List.mem_append_right newer List.mem_cons_self
        exact (nodup_map_iff _ _).mp h.constants front language back hsplit earlier hearlier hsame
    | unlistedDefault hsome hdefault => exact hdefault h.listed
    | emptySuffix hsuffix => exact h.suffix hsuffix
    | malformedIdentifier identifier type htype hname =>
        exact hname (h.types identifier type htype).1
    | blankTarget identifier type htype hblank =>
        rcases (h.types identifier type htype).2.1 with ⟨x, hx, hnot⟩
        rw [hblank x hx] at hnot
        cases hnot
    | malformedTemplate identifier type htype hmarker =>
        exact hmarker (h.types identifier type htype).2.2

end Config

end Phrasebook
