import Phrasebook.Proofs.Problems

/-!
# What a Valid Configuration Promises

The facts about languages that everything behind the validation relies on: there
is a default language among them, no two have the same constant, and their names have
no other characters than languages may have.

## Theorems

* `Config.Valid.nodup_constants`: The languages of a valid configuration have different
  constants.
* `Config.Valid.isLanguage`: The languages have no other characters than languages may
  have.
* `Config.Valid.defaultLanguage_mem`: The default language is one of them.
* `Config.Valid.nodup_default_cons`: The default language and the others are different
  languages.
-/

namespace Phrasebook

namespace Config

/-- The languages of a valid configuration have different constants. -/
theorem Valid.nodup_constants (c : Config) (h : c.Valid) :
    (c.languages.map Locale.constant).Nodup :=
  ((valid_iff_sound c).mp h).constants

/-- The languages of a valid configuration are made of the characters of languages. -/
theorem Valid.isLanguage (c : Config) (h : c.Valid) :
    ∀ language ∈ c.languages, isLanguage language = true := by
  intro language hlanguage
  exact (isLanguage_iff language).mpr (((valid_iff_sound c).mp h).languages language hlanguage)

/-- The default language of a valid configuration is one of its languages. -/
theorem Valid.defaultLanguage_mem (c : Config) (h : c.Valid) :
    c.defaultLanguage ∈ c.languages :=
  ((valid_iff_sound c).mp h).listed

/-- The default language and the others of a valid configuration are different
    languages. -/
theorem Valid.nodup_default_cons (c : Config) (h : c.Valid) :
    (c.defaultLanguage :: c.secondaryLanguages).Nodup := by
  have hlanguages : c.languages.Nodup := (h.nodup_constants c).of_map
  refine List.nodup_cons.mpr ⟨fun hmem => ?_, hlanguages.filter _⟩
  exact of_decide_eq_true (List.mem_filter.mp hmem).2 rfl

end Config

end Phrasebook
