import Mathlib
import Phrasebook.Proofs.Problems

/-!
# The Report on a Configuration

The problems of a configuration are told in the order of its fields, languages by
position and custom types by identifier. Every problem has a place that ascends strictly
along the list, so no problem is told twice, and with what is wrong with the
configuration the whole list is known. The path of a problem says at which language it
was found, and so how much is told of each.

## Main definitions

* `Problem.place`: Where a problem is told.
* `Config.problemsIn`: The problems in a field.

## Theorems

* `Config.pairwise_problems`: The problems are told in ascending order.
* `Problem.path_eq_languagePath_iff`: A path is the path of one language only.
* `Config.length_problemsAt`: How much is told of a language.
* `Config.problems_exact`: What is told of a configuration.
-/

namespace Phrasebook

/-- Where a problem is told: the number of its field, the position of a language, the
    identifier of a type, and the number of the check. -/
def Problem.place : Problem → ℕ ×ₗ ℕ ×ₗ String ×ₗ ℕ
  | noLanguages => toLex (0, toLex (0, toLex ("", 0)))
  | malformedLanguage index _ => toLex (1, toLex (index, toLex ("", 0)))
  | repeatedLanguage index _ => toLex (1, toLex (index, toLex ("", 1)))
  | sharedConstant index _ _ => toLex (1, toLex (index, toLex ("", 1)))
  | unlistedDefault _ => toLex (2, toLex (0, toLex ("", 0)))
  | emptySuffix => toLex (3, toLex (0, toLex ("", 0)))
  | malformedIdentifier identifier => toLex (4, toLex (0, toLex (identifier, 0)))
  | blankTarget identifier => toLex (4, toLex (0, toLex (identifier, 1)))
  | malformedTemplate identifier _ => toLex (4, toLex (0, toLex (identifier, 2)))

namespace Config

/-- A clash is told at its language, behind what is told of the name. -/
theorem place_of_clash? (index : Nat) (earlier : List LocaleConstant) (language : LocaleConstant)
    (p : Problem) (h : clash? index earlier language = some p) :
    p.place = toLex (1, toLex (index, toLex ("", 1))) := by
  rw [clash?] at h
  split at h
  · rw [← Option.some.inj h]
    rfl
  · split at h
    · rw [← Option.some.inj h]
      rfl
    · cases h

/-- What is told of a language is told at its position. -/
theorem place_problemsOf (index : Nat) (earlier : List LocaleConstant) (language : LocaleConstant)
    (p : Problem) (h : p ∈ problemsOf index earlier language) :
    ∃ check, p.place = toLex (1, toLex (index, toLex ("", check))) := by
  rcases (mem_problemsOf_iff _ _ _ _).mp h with ⟨-, rfl⟩ | hclash
  · exact ⟨0, rfl⟩
  · exact ⟨1, place_of_clash? _ _ _ _ hclash⟩

/-- Of a language the name is told first. -/
theorem pairwise_problemsOf (index : Nat) (earlier : List LocaleConstant)
    (language : LocaleConstant) :
    (problemsOf index earlier language).Pairwise (fun p q => p.place < q.place) := by
  rw [problemsOf, List.pairwise_append]
  refine ⟨?_, ?_, ?_⟩
  · split
    · exact List.Pairwise.nil
    · exact List.pairwise_singleton _ _
  · cases clash? index earlier language with
    | none => exact List.Pairwise.nil
    | some p => exact List.pairwise_singleton _ _
  -- A malformed language is told in front of what it clashes with.
  · intro p hp q hq
    rw [List.mem_ite_nil_left, List.mem_singleton] at hp
    rw [hp.2, place_of_clash? _ _ _ _ (Option.mem_toList.mp hq), Problem.place]
    simp [Prod.Lex.toLex_lt_toLex]

/-- What is told of languages is told of the first one or later ones. -/
theorem place_languageProblems (index : Nat) (earlier languages : List LocaleConstant)
    (p : Problem) (h : p ∈ languageProblems index earlier languages) :
    ∃ later check, index ≤ later ∧ p.place = toLex (1, toLex (later, toLex ("", check))) := by
  induction languages generalizing index earlier with
  | nil => exact absurd h List.not_mem_nil
  | cons language languages ih =>
      rw [languageProblems_cons, List.mem_append] at h
      rcases h with hfirst | hlater
      · rcases place_problemsOf _ _ _ p hfirst with ⟨check, hplace⟩
        exact ⟨index, check, le_rfl, hplace⟩
      · rcases ih _ _ hlater with ⟨later, check, hle, hplace⟩
        exact ⟨later, check, by omega, hplace⟩

/-- The problems of languages are told by position. -/
theorem pairwise_languageProblems (index : Nat) (earlier languages : List LocaleConstant) :
    (languageProblems index earlier languages).Pairwise (fun p q => p.place < q.place) := by
  induction languages generalizing index earlier with
  | nil => exact List.Pairwise.nil
  | cons language languages ih =>
      rw [languageProblems_cons, List.pairwise_append]
      refine ⟨pairwise_problemsOf _ _ _, ih _ _, ?_⟩
      intro p hp q hq
      rcases place_problemsOf _ _ _ p hp with ⟨check, hplace⟩
      rcases place_languageProblems _ _ _ q hq with ⟨later, check', hle, hlater⟩
      rw [hplace, hlater, Prod.Lex.toLex_lt_toLex, Prod.Lex.toLex_lt_toLex]
      exact Or.inr ⟨rfl, Or.inl hle⟩

/-- What is told of a type is told of its identifier. -/
theorem place_typeProblems (identifier : String) (type : CustomType) (p : Problem)
    (h : p ∈ typeProblems identifier type) :
    ∃ check, p.place = toLex (4, toLex (0, toLex (identifier, check))) := by
  rcases (mem_typeProblems_iff _ _ _).mp h with ⟨-, rfl⟩ | ⟨-, rfl⟩ | ⟨-, rfl⟩
  · exact ⟨0, rfl⟩
  · exact ⟨1, rfl⟩
  · exact ⟨2, rfl⟩

theorem pairwise_typeProblems (identifier : String) (type : CustomType) :
    (typeProblems identifier type).Pairwise (fun p q => p.place < q.place) := by
  have hchecks : [Problem.malformedIdentifier identifier, .blankTarget identifier,
      .malformedTemplate identifier type.template].Pairwise (fun p q => p.place < q.place) := by
    simp [Problem.place, Prod.Lex.toLex_lt_toLex]
  refine hchecks.sublist ?_
  rw [typeProblems]
  split <;> split <;> split <;> simp

theorem pairwise_allTypeProblems (types : Dict CustomType) :
    (types.pairs.flatMap (fun (identifier, type) => typeProblems identifier type)).Pairwise
      (fun p q => p.place < q.place) := by
  rw [List.pairwise_flatMap]
  refine ⟨fun entry _ => pairwise_typeProblems entry.1 entry.2, types.ordered.imp ?_⟩
  intro first second hlt p hp q hq
  rcases place_typeProblems _ _ p hp with ⟨check, hplace⟩
  rcases place_typeProblems _ _ q hq with ⟨check', hplace'⟩
  rw [hplace, hplace', Prod.Lex.toLex_lt_toLex, Prod.Lex.toLex_lt_toLex, Prod.Lex.toLex_lt_toLex]
  exact Or.inr ⟨rfl, Or.inr ⟨rfl, Or.inl hlt⟩⟩

/-- The problems of a configuration in a field with a number. -/
def problemsIn (c : Config) : ℕ → List Problem
  | 0 => if c.languages = [] then [.noLanguages] else []
  | 1 => languageProblems 0 [] c.localeConstants
  | 2 => c.defaultProblems
  | 3 => if c.nestedSuffix = some "" then [.emptySuffix] else []
  | 4 => c.customTypes.pairs.flatMap (fun (identifier, type) => typeProblems identifier type)
  | _ => []

theorem problems_eq_flatMap (c : Config) : c.problems = (List.range 5).flatMap c.problemsIn := by
  have hnumbers : List.range 5 = [0, 1, 2, 3, 4] := rfl
  rw [hnumbers]
  simp only [problems, problemsIn, List.flatMap_cons, List.flatMap_nil, List.append_nil,
    List.append_assoc]

theorem place_problemsIn (c : Config) (field : ℕ) (p : Problem) (h : p ∈ c.problemsIn field) :
    (ofLex p.place).1 = field := by
  rcases field with _ | _ | _ | _ | _ | field
  · rw [problemsIn, List.mem_ite_nil_right, List.mem_singleton] at h
    rw [h.2]
    rfl
  · rcases place_languageProblems _ _ _ p h with ⟨later, check, -, hplace⟩
    rw [hplace]
    rfl
  · rw [((mem_defaultProblems_iff c p).mp h).2]
    rfl
  · rw [problemsIn, List.mem_ite_nil_right, List.mem_singleton] at h
    rw [h.2]
    rfl
  · rcases List.mem_flatMap.mp h with ⟨entry, -, hp⟩
    rcases place_typeProblems _ _ p hp with ⟨check, hplace⟩
    rw [hplace]
    rfl
  · exact absurd h List.not_mem_nil

theorem pairwise_problemsIn (c : Config) (field : ℕ) :
    (c.problemsIn field).Pairwise (fun p q => p.place < q.place) := by
  rcases field with _ | _ | _ | _ | _ | field
  · rw [problemsIn]
    split
    · exact List.pairwise_singleton _ _
    · exact List.Pairwise.nil
  · exact pairwise_languageProblems _ _ _
  · rw [problemsIn, defaultProblems]
    split
    · exact List.Pairwise.nil
    · exact List.pairwise_singleton _ _
  · rw [problemsIn]
    split
    · exact List.pairwise_singleton _ _
    · exact List.Pairwise.nil
  · exact pairwise_allTypeProblems c.customTypes
  · exact List.Pairwise.nil

/-- The problems of a configuration are told in the order of the fields, the languages by
    position and the types by identifier. -/
theorem pairwise_problems (c : Config) :
    c.problems.Pairwise (fun p q => p.place < q.place) := by
  rw [problems_eq_flatMap, List.pairwise_flatMap]
  refine ⟨fun field _ => pairwise_problemsIn c field, List.pairwise_lt_range.imp ?_⟩
  intro first second hlt p hp q hq
  rw [Prod.Lex.lt_iff, place_problemsIn c first p hp, place_problemsIn c second q hq]
  exact Or.inl hlt

end Config

namespace Problem

theorem languagePath_ne_languages (index : ℕ) :
    "languages" ≠ "languages[" ++ toString index ++ "]" := by
  intro h
  have hlength := congrArg String.length h
  have hleft : "languages".length = 9 := rfl
  have hright : "languages[".length = 10 := rfl
  rw [String.length_append, String.length_append, hleft, hright] at hlength
  omega

/-- The path of a language is the path of what is wrong with it, and of nothing else. -/
theorem path_eq_languagePath_iff (p : Problem) (index : ℕ) :
    p.path = "languages[" ++ toString index ++ "]" ↔
      ∃ check, p.place = toLex (1, toLex (index, toLex ("", check))) := by
  have hhead : ("languages[" ++ toString index ++ "]").toList.head? = some 'l' := by
    simp
  have hother : ∀ s : String, s.toList.head? ≠ some 'l' →
      s ≠ "languages[" ++ toString index ++ "]" := by
    intro s hs h
    exact hs (h ▸ hhead)
  -- A path with an index is that of a language. All others start with another letter, but for
  -- that of the list itself, which is shorter.
  cases p with
  | noLanguages => simpa [path, place] using languagePath_ne_languages index
  | malformedLanguage m language => simp [path, place]
  | repeatedLanguage m language => simp [path, place]
  | sharedConstant m language earlier => simp [path, place]
  | unlistedDefault language => simpa [path, place] using hother "defaultLanguage" (by simp)
  | emptySuffix => simpa [path, place] using hother "nestedSuffix" (by simp)
  | malformedIdentifier identifier =>
      simpa [path, place] using hother ("customTypes." ++ identifier) (by simp)
  | blankTarget identifier =>
      simpa [path, place] using hother ("customTypes." ++ identifier ++ ".targetType") (by simp)
  | malformedTemplate identifier template =>
      simpa [path, place] using hother ("customTypes." ++ identifier ++ ".template") (by simp)

end Problem

namespace Config

/-- What is told at the path of a language is what is wrong with it. -/
theorem mem_problems_and_path_iff (c : Config) (front back : List String) (language : String)
    (hsplit : c.languages = front ++ language :: back) (p : Problem) :
    p ∈ c.problems ∧ p.path = "languages[" ++ toString front.length ++ "]" ↔
      p ∈ problemsAt front language := by
  rw [Problem.path_eq_languagePath_iff]
  constructor
  · rintro ⟨hp, check, hplace⟩
    rcases (mem_problems_iff c p).mp hp with ⟨-, rfl⟩ | ⟨front', language', back', hsplit', hp⟩ |
      ⟨-, rfl⟩ | ⟨-, rfl⟩ | ⟨identifier, type, -, hp⟩
    · cases hplace
    · rcases place_problemsOf _ _ _ p hp with ⟨check', hplace'⟩
      -- The place has the index, and the index says where the languages are split.
      have hindex : front'.length = front.length :=
        congrArg (fun place => (ofLex (ofLex place).2).1) (hplace'.symm.trans hplace)
      have hparts := List.append_inj (hsplit'.symm.trans hsplit) hindex
      cases hparts.1
      cases hparts.2
      exact hp
    · cases hplace
    · cases hplace
    · rcases place_typeProblems identifier type p hp with ⟨check', hplace'⟩
      cases hplace'.symm.trans hplace
  · intro hp
    exact ⟨(mem_problems_iff c p).mpr (Or.inr (Or.inl ⟨front, language, back, hsplit, hp⟩)),
      place_problemsOf _ _ _ p hp⟩

/-- What is told in ascending order is told once. -/
theorem nodup_of_pairwise (ps : List Problem) (h : ps.Pairwise (fun p q => p.place < q.place)) :
    ps.Nodup := by
  refine h.imp (fun hlt heq => ?_)
  rw [heq] at hlt
  exact lt_irrefl _ hlt

/-- How much is told of a language. -/
theorem length_problemsAt (front : List String) (language : String) :
    (problemsAt front language).length =
      (if IsLanguageName language then 0 else 1) +
      (if ∃ other ∈ front, Locale.constant other = Locale.constant language then 1 else 0) := by
  -- A language has two rules to break, and each is told once at most.
  have hname : (if isLanguage language then [] else
      [Problem.malformedLanguage front.length language]).length =
      if IsLanguageName language then 0 else 1 := by
    simp only [isLanguage_iff]
    split
    · rfl
    · rfl
  have hclash : (clash? front.length ((introduced front).map .ofLocale)
      (.ofLocale language)).toList.length =
      if ∃ other ∈ front, Locale.constant other = Locale.constant language then 1 else 0 := by
    -- There is a clash exactly if an earlier language has the constant.
    have hnone := clash?_introduced_eq_none_iff front.length front language
    split
    · next hother =>
        rcases hother with ⟨other, hother, hsame⟩
        cases hfound : clash? front.length ((introduced front).map .ofLocale)
            (.ofLocale language) with
        | none => exact absurd hsame (hnone.mp hfound other hother)
        | some p => rfl
    · next hno =>
        rw [hnone.mpr (fun other hother hsame => hno ⟨other, hother, hsame⟩)]
        rfl
  rw [problemsAt, problemsOf, List.length_append, hclash]
  exact congrArg (· + _) hname

/-- What is told of a configuration: nothing exactly if it is sound, and else what is wrong
    with it and nothing else, at the field where it is wrong and in the order of the fields.
    Of a language two things are told at most, of its name and of a clash. -/
theorem problems_exact (c : Config) :
    (c.Valid ↔ Sound c) ∧
    (c.Valid → c.languages.Nodup) ∧
    (∀ path p, p ∈ c.problems ∧ p.path = path ↔ Misconfigured c path p) ∧
    (∀ front language back, c.languages = front ++ language :: back →
      (c.problems.filter (fun p => p.path = "languages[" ++ toString front.length ++ "]")).length =
        (if IsLanguageName language then 0 else 1) +
        (if ∃ other ∈ front, Locale.constant other = Locale.constant language then 1 else 0)) ∧
    c.problems.Pairwise (fun p q => p.place < q.place) := by
  refine ⟨valid_iff_sound c, ?_, ?_, ?_, pairwise_problems c⟩
  · intro hvalid
    exact ((valid_iff_sound c).mp hvalid).constants.of_map
  · intro path p
    constructor
    · rintro ⟨hp, rfl⟩
      exact misconfigured_of_mem c p hp
    · exact mem_of_misconfigured c path p
  · intro front language back hsplit
    rw [← length_problemsAt]
    have hdistinct := nodup_of_pairwise c.problems (pairwise_problems c)
    -- Neither list has a problem twice, so it is enough that they have the same ones.
    refine ((List.perm_ext_iff_of_nodup (hdistinct.filter _) ?_).mpr ?_).length_eq
    · exact nodup_of_pairwise _ (pairwise_problemsOf _ _ _)
    · intro p
      rw [List.mem_filter, decide_eq_true_iff]
      exact mem_problems_and_path_iff c front back language hsplit p

example : (Config.mk ["de", "DE", "de", "de-AT", "De_at", ""] "fr" true (some "") .empty).problems =
    [.sharedConstant 1 "DE" "de", .repeatedLanguage 2 "de", .sharedConstant 4 "De_at" "de-AT",
      .malformedLanguage 5 "", .unlistedDefault "fr", .emptySuffix] := by decide +kernel

end Config

end Phrasebook
