import Phrasebook.Config.Basic
import Phrasebook.Message.Template
import Phrasebook.Text.Blank
import Phrasebook.Text.Word

/-!
# Valid Configurations

All that can be wrong with a configuration that was read. Every problem is
reported, in the order of the fields, languages by position and custom types by
identifier.

Of a language that occurred before, only that is said. A language that is new may
still have the constant of an earlier one; of several such, the last is named.

## Main definitions

* `Problem`: What is wrong with a configuration.
* `Problem.path`, `Problem.message`: The field of a problem and the words for it.
* `Config.problems`: All problems of a configuration.
-/

namespace Phrasebook

/-- What is wrong with a configuration. -/
inductive Problem where
  | noLanguages
  | malformedLanguage (index : Nat) (language : String)
  | repeatedLanguage (index : Nat) (language : String)
  /-- The language has the constant of an earlier one. -/
  | sharedConstant (index : Nat) (language earlier : String)
  | unlistedDefault (language : String)
  | emptySuffix
  | malformedIdentifier (identifier : String)
  | blankTarget (identifier : String)
  | malformedTemplate (identifier template : String)
  deriving DecidableEq

namespace Problem

/-- The field that has a problem. -/
def path : Problem → String
  | noLanguages => "languages"
  | malformedLanguage index _ => "languages[" ++ toString index ++ "]"
  | repeatedLanguage index _ => "languages[" ++ toString index ++ "]"
  | sharedConstant index _ _ => "languages[" ++ toString index ++ "]"
  | unlistedDefault _ => "defaultLanguage"
  | emptySuffix => "nestedSuffix"
  | malformedIdentifier identifier => "customTypes." ++ identifier
  | blankTarget identifier => "customTypes." ++ identifier ++ ".targetType"
  | malformedTemplate identifier _ => "customTypes." ++ identifier ++ ".template"

/-- The words for a problem. -/
def message : Problem → String
  | noLanguages => "At least one language is required. Example: [\"de\", \"en\"]"
  | malformedLanguage _ language =>
    "Invalid language '" ++ language ++
      "'. Use letters, digits, '-' or '_' (e.g., \"en\", \"pt-BR\")"
  | repeatedLanguage _ language => "Language '" ++ language ++ "' is listed more than once"
  | sharedConstant _ language earlier =>
    "Language '" ++ language ++ "' maps to the same constant " ++ Locale.constant language ++
      " as '" ++ earlier ++ "'"
  | unlistedDefault language =>
    "Default language '" ++ language ++ "' is not in the list of languages"
  | emptySuffix =>
    "The suffix cannot be empty. Please specify a suffix (e.g., \"_nested\"), or set it to null"
  | malformedIdentifier _ => "Type identifiers may only contain letters, digits and '_'"
  | blankTarget _ => "The target type cannot be empty"
  | malformedTemplate _ template =>
    "The template '" ++ template ++ "' must contain '" ++ Template.marker ++ "' exactly once"

end Problem

namespace Config

/-- Whether a language is made of identifier characters and `-`, and not
    empty. -/
def isLanguage (language : String) : Bool :=
  !language.isEmpty && language.toList.all (fun c => Text.isIdentifierChar c || c == '-')

/-- Whether the identifier of a type is made of identifier characters, and not
    empty. -/
def isIdentifier (identifier : String) : Bool :=
  !identifier.isEmpty && identifier.toList.all Text.isIdentifierChar

/-- The clash of a language with those listed before it, the latest first. -/
def clash? (index : Nat) (earlier : List LocaleConstant) (language : LocaleConstant) :
    Option Problem :=
  if language ∈ earlier then some (.repeatedLanguage index language.locale)
  else
    match earlier.find? (fun other => other.constant = language.constant) with
    | some other => some (.sharedConstant index language.locale other.locale)
    | none => none

/-- The problems of languages, of which the first has the position `index`;
    `earlier` are the different ones before, the latest first. -/
def languageProblems (index : Nat) (earlier : List LocaleConstant) :
    List LocaleConstant → List Problem
  | [] => []
  | language :: languages =>
    (if isLanguage language.locale then [] else [.malformedLanguage index language.locale]) ++
      (clash? index earlier language).toList ++
      languageProblems (index + 1)
        (if language ∈ earlier then earlier else language :: earlier) languages

/-- The problems of the default language, which has to be listed if any is. -/
def defaultProblems (c : Config) : List Problem :=
  if c.languages = [] ∨ c.defaultLanguage ∈ c.languages then []
  else [.unlistedDefault c.defaultLanguage]

/-- The problems of one custom type. -/
def typeProblems (identifier : String) (type : CustomType) : List Problem :=
  (if isIdentifier identifier then [] else [.malformedIdentifier identifier]) ++
    (if Text.trim type.target.toList = [] then [.blankTarget identifier] else []) ++
    (if (Template.ofString? type.template).isSome then []
      else [.malformedTemplate identifier type.template])

/-- All problems of a configuration. -/
def problems (c : Config) : List Problem :=
  (if c.languages = [] then [.noLanguages] else []) ++
    languageProblems 0 [] c.localeConstants ++ c.defaultProblems ++
    (if c.nestedSuffix = some "" then [.emptySuffix] else []) ++
    c.customTypes.pairs.flatMap (fun (identifier, type) => typeProblems identifier type)

/-- A configuration without problems. -/
def Valid (c : Config) : Prop := c.problems = []

instance (c : Config) : Decidable c.Valid := inferInstanceAs (Decidable (c.problems = []))

end Config

end Phrasebook
