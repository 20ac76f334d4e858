import Phrasebook.Catalogue.Entry
import Phrasebook.Emission.Naming

/-!
# Shape and Dispatch of Message Types

The type that is generated for a message: a single value for a message without
arguments, otherwise a record with a field for each. And the arms by which it
chooses the phrase of a locale: first all locales that show the default phrase
together, and then one arm for each other configured locale, in order.

## Main definitions

* `Shape`: A single value or a record.
* `Arm`: Locales that show one phrase.
* `Entry.shape`, `Entry.arms`: Shape and arms of an entry.
-/

namespace Phrasebook

/-- A field of a record. -/
structure Field where
  name : String
  typeName : String
  deriving DecidableEq

/-- The shape of a message type. -/
inductive Shape where
  | single
  /-- One field for each argument, by ascending name. -/
  | record (fields : List Field)
  deriving DecidableEq

/-- The locales that show one phrase. -/
structure Arm where
  locales : List LocaleConstant
  phrase : Phrase
  deriving DecidableEq

namespace Entry

/-- The shape of the type of an entry. -/
def shape (e : Entry) : Shape :=
  if e.hasArguments then .record (e.arguments.pairs.map (fun (name, type) => ⟨name, type⟩))
  else .single

/-- The arm of the locales that show the default phrase. -/
def fallbackArm? (e : Entry) : Option Arm :=
  e.defaultPhrase?.map (Arm.mk (e.fallbacks.map .ofLocale))

/-- The arm of a locale that has a phrase of its own. -/
def ownArm? (e : Entry) (locale : String) : Option Arm :=
  if locale = e.defaultLocale then none
  else (e.phrases.get? locale).map (Arm.mk [.ofLocale locale])

/-- The arms of an entry. -/
def arms (e : Entry) (config : Config) : List Arm :=
  e.fallbackArm?.toList ++ config.languages.filterMap e.ownArm?

end Entry

end Phrasebook
