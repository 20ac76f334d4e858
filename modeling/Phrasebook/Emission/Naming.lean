import Phrasebook.Config.Basic

/-!
# Names of the Generated Code

How packages, types and locales are called in the code that is generated for a
catalogue. Types that stand directly in a package, and inner groups, carry a
prefix; a message inside an inner group has its own name alone. Packages are
called what their keys say, so one may look like an inner group of another.

## Main definitions

* `Capability`: The interface that every message type has.
* `Naming.qualifiedPackage`: The full name of a package.
* `Naming.messageType`, `Naming.groupType`: The names of types.
* `Naming.qualify`: A name inside another.
-/

namespace Phrasebook

/-- An interface with one operation. -/
structure Capability where
  name : String
  operation : String
  parameterType : String
  returnType : String
  deriving DecidableEq

namespace Naming

/-- The package of the enumeration of locales and of the interface of messages,
    and the package below which others are placed. -/
def basePackage : String := "i18n.generated"

/-- The name of the enumeration of locales. -/
def localeEnumeration : String := "I18nLanguage"

/-- The name of the constant that holds the default locale. -/
def defaultLocale : String := "I18N_DEFAULT_LANGUAGE"

/-- The prefix of types in a package and of inner groups. -/
def typePrefix : String := "I18n_"

/-- The interface of message types: the text of the message in a locale. -/
def capability : Capability := ⟨"I18nMessage", "translateTo", localeEnumeration, "String"⟩

/-- A name inside a parent; the parent without a name adds nothing. -/
def qualify (parent name : String) : String :=
  if parent.isEmpty then name else parent ++ "." ++ name

/-- The full name of the package at `path`, of which the root is empty. -/
def qualifiedPackage (config : Config) (path : String) : String :=
  if config.withBasePackage then
    if path.isEmpty then basePackage else basePackage ++ "." ++ path
  else path

/-- The name of the type of a message. -/
def messageType (name : String) (inGroup : Bool) : String :=
  if inGroup then name else typePrefix ++ name

/-- The name of the type of an inner group. -/
def groupType (name : String) : String := typePrefix ++ name

end Naming

end Phrasebook
