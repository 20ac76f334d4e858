import Phrasebook.Dict
import Phrasebook.Locale.Constant

/-!
# Configurations

What a run is configured with: the languages, of which one is the default, and
how messages are named and typed.

## Main definitions

* `CustomType`: A type of arguments that the configuration adds.
* `Config`: A configuration.
* `Config.default`: The configuration of a new project.
* `Config.secondaryLanguages`: The languages other than the default.
* `Config.localeConstants`: The constants of the languages.
* `Config.groupSuffix?`: The suffix that marks inner groups.
-/

namespace Phrasebook

/-- A type of arguments: the type that values have, and the template that shows
    them, as it is written. -/
structure CustomType where
  target : String
  template : String
  deriving DecidableEq, Inhabited

/-- A configuration. -/
structure Config where
  /-- The languages, in the order in which they are listed everywhere. -/
  languages : List String
  defaultLanguage : String
  /-- Whether packages are placed below a base package. -/
  withBasePackage : Bool
  /-- The end of a segment that makes it an inner group. -/
  nestedSuffix : Option String
  /-- The types of arguments besides the native ones, by identifier. -/
  customTypes : Dict CustomType
  deriving DecidableEq

namespace Config

/-- The configuration of a new project. -/
def default : Config where
  languages := ["de", "en"]
  defaultLanguage := "de"
  withBasePackage := true
  nestedSuffix := some "_nested"
  customTypes := Dict.empty.insert "Mention" ⟨"Long", "<@\x7bvar\x7d>"⟩

instance : Inhabited Config := ⟨default⟩

/-- The languages other than the default, in order. -/
def secondaryLanguages (c : Config) : List String :=
  c.languages.filter (· ≠ c.defaultLanguage)

/-- The constants of the languages, in order. -/
def localeConstants (c : Config) : List LocaleConstant := c.languages.map .ofLocale

/-- The constant of the default language. -/
def defaultConstant (c : Config) : LocaleConstant := .ofLocale c.defaultLanguage

/-- The suffix that marks inner groups; an empty one marks none. -/
def groupSuffix? (c : Config) : Option String := c.nestedSuffix.filter (fun s => !s.isEmpty)

end Config

end Phrasebook
