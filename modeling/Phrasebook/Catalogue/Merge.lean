import Phrasebook.Catalogue.Entry
import Phrasebook.Placeholder.Reading

/-!
# Merging Locales

One entry for each key of the default locale, from the texts of all locales. A
locale may lack keys of the default locale but not add any, and its text must
take the arguments of the default text. A locale whose text reads as the default
one counts as lacking it.

Foreign keys are looked for first, in all locales. Then the keys are gone through
in order, and for each the default text before the others.

## Main definitions

* `Edition`: The messages of a locale other than the default.
* `foreignKey?`: The first key that the default locale lacks.
* `mergeKey`: The entry of one key.
* `merge`: The entries of all keys.
-/

namespace Phrasebook

/-- The messages of a locale other than the default. -/
structure Edition where
  locale : String
  messages : Dict String

/-- The least key of an edition that the default messages lack. -/
def Edition.foreignKey? (base : Dict String) (edition : Edition) : Option String :=
  edition.messages.keys.find? (fun key => !base.contains key)

/-- The defect of the first edition with a foreign key. -/
def foreignKey? (base : Dict String) (editions : List Edition) : Option Defect :=
  editions.findSome? (fun edition =>
    (edition.foreignKey? base).map (Defect.foreignKey edition.locale))

/-- Add the phrase of an edition to those of the editions before it, unless the
    edition lacks the key or has the phrase of the default text. -/
def addEdition (types : Dict CustomType) (key : String) (base : Reading)
    (phrases : Dict Phrase) (edition : Edition) : Except Defect (Dict Phrase) :=
  match edition.messages.get? key with
  | none => .ok phrases
  | some text => do
    let reading ← Reading.ofText types text
    if reading.signature ≠ base.signature then
      .error (.signatures key edition.locale base.signature reading.signature)
    else if reading.phrase = base.phrase then .ok phrases
    else .ok (phrases.insert edition.locale reading.phrase)

/-- The entry of a key with the default text `text`. -/
def mergeKey (config : Config) (editions : List Edition) (key text : String) :
    Except Defect Entry := do
  let base ← Reading.ofText config.customTypes text
  let others ← editions.foldlM (addEdition config.customTypes key base) .empty
  let phrases := others.insert config.defaultLanguage base.phrase
  return {
    arguments := base.signature
    phrases := phrases
    defaultLocale := config.defaultLanguage
    fallbacks := config.languages.filter (fun language =>
      language = config.defaultLanguage ∨ !phrases.contains language) }

/-- The entries of all keys of the default messages. -/
def merge (config : Config) (base : Dict String) (editions : List Edition) :
    Except Defect (Dict Entry) :=
  match foreignKey? base editions with
  | some defect => .error defect
  | none => base.mapM (mergeKey config editions)

end Phrasebook
