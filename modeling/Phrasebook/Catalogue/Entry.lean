import Phrasebook.Message.Defect
import Phrasebook.Message.Phrase

/-!
# Entries

What is known of one message in all languages: its arguments, the phrases of the
languages that have one of their own, and the languages that show the default
phrase.

## Main definitions

* `Entry`: A message in all languages.
* `Entry.defaultPhrase?`: The phrase of the default locale.
* `Entry.phraseFor?`: The phrase that a locale shows.
-/

namespace Phrasebook

/-- A message in all languages. -/
structure Entry where
  arguments : Signature
  /-- The phrases of the default locale and of the locales that differ from
      it. -/
  phrases : Dict Phrase
  defaultLocale : String
  /-- The locales that show the default phrase, in configured order. -/
  fallbacks : List String
  deriving DecidableEq

namespace Entry

/-- Whether the message takes arguments. -/
def hasArguments (e : Entry) : Bool := !e.arguments.isEmpty

/-- The phrase of the default locale. -/
def defaultPhrase? (e : Entry) : Option Phrase := e.phrases.get? e.defaultLocale

/-- The phrase that a locale shows. -/
def phraseFor? (e : Entry) (locale : String) : Option Phrase :=
  if locale ∈ e.fallbacks then e.defaultPhrase? else e.phrases.get? locale

end Entry

end Phrasebook
