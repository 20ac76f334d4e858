import Phrasebook.Text.Uppercase

/-!
# Locale Constants

The name of a locale in the generated enumeration: upper case, with `_` for `-`.
Two locales may have the same constant, as `pt-br` and `pt_BR` do; a valid
configuration has no such pair.

## Main definitions

* `Locale.constant`: The constant of a locale.
* `LocaleConstant`: A locale and its constant.
-/

namespace Phrasebook

namespace Locale

/-- The constant of a locale. -/
def constant (locale : String) : String :=
  String.ofList ((Text.toUpper locale).toList.map (fun c => if c = '-' then '_' else c))

end Locale

/-- A locale and its constant in the generated enumeration. -/
structure LocaleConstant where
  locale : String
  constant : String
  deriving DecidableEq

/-- The constant of a locale. -/
def LocaleConstant.ofLocale (locale : String) : LocaleConstant := ⟨locale, Locale.constant locale⟩

end Phrasebook
