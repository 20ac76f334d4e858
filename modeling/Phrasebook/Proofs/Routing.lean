import Mathlib.Data.List.Nodup
import Phrasebook.Catalogue.Compile
import Phrasebook.Emission.Dispatch
import Phrasebook.Proofs.Catalogue
import Phrasebook.Proofs.Merge
import Phrasebook.Proofs.Validation

/-!
# Every Locale Shows Its Own Text

A message chooses its phrase by the arms of its entry. Whether that is the right
phrase depends on places that do not know of each other: merging leaves out the
phrases that equal the default one, the fallbacks are the languages without a
phrase, and the arms are read off both. What they agree on is `Entry.Complete`:
the default language has a phrase, and the fallbacks are the default language and
the languages without one. From there the arms are a partition of the languages,
and the arm of a language has the phrase that the entry has for it.

## Main definitions

* `Entry.Complete`: Phrases and fallbacks fit together.
* `Entry.armOf`: The arm of a language.
* `ownPhrase?`: The phrase of the text that a locale has for a key.

## Theorems

* `Entry.Complete.arms_eq`: The arms of a complete entry.
* `Entry.Complete.perm_arms`: They hold every language once.
* `Entry.Complete.armOf_mem_arms`, `Entry.Complete.eq_armOf_of_mem_arms`: A language
  is in its own arm and in no other.
* `complete_of_mergeKey`: Merged entries are complete.
* `phrases_of_mergeKey`, `phraseFor?_of_mergeKey`: What merging makes of the text
  of a locale.
* `compile_routes`: Every language shows its own text if it has one, and the
  default text otherwise.
-/

namespace Phrasebook

namespace Entry

/-- The default language has a phrase, and the fallbacks are the default language
    and the languages that have none. -/
structure Complete (e : Entry) (config : Config) : Prop where
  defaultLocale : e.defaultLocale = config.defaultLanguage
  hasDefault : (e.phrases.get? config.defaultLanguage).isSome
  fallbacks : e.fallbacks = config.languages.filter (fun language =>
    language = config.defaultLanguage ∨ !e.phrases.contains language)

/-- The arm of a language. -/
def armOf (e : Entry) (locale : String) (phrase : Phrase) : Arm :=
  ⟨(if locale ∈ e.fallbacks then e.fallbacks else [locale]).map .ofLocale, phrase⟩

variable {e : Entry} {config : Config}

/-- A language is a fallback exactly if it is the default or has no phrase. -/
theorem Complete.mem_fallbacks_iff (h : e.Complete config)
    (locale : String) (hlocale : locale ∈ config.languages) :
    locale ∈ e.fallbacks ↔
      locale = config.defaultLanguage ∨ e.phrases.get? locale = none := by
  rw [h.fallbacks, List.mem_filter, decide_eq_true_iff, Dict.contains]
  cases e.phrases.get? locale with
  | none => simp only [hlocale, Option.isSome_none, Bool.not_false, or_true, and_self]
  | some phrase =>
      simp only [hlocale, Option.isSome_some, Bool.not_true, Bool.false_eq_true, or_false,
        true_and, reduceCtorEq]

/-- A language other than the default has an arm of its own exactly if it is not
    a fallback. -/
theorem Complete.ownArm?_eq (h : e.Complete config)
    (locale : String) (hlocale : locale ∈ config.languages) :
    e.ownArm? locale =
      if locale ∈ e.fallbacks then none
      else (e.phrases.get? locale).map (Arm.mk [.ofLocale locale]) := by
  have hmem := h.mem_fallbacks_iff locale hlocale
  rw [ownArm?, h.defaultLocale]
  by_cases hdefault : locale = config.defaultLanguage
  · rw [if_pos hdefault, if_pos (hmem.mpr (Or.inl hdefault))]
  · rw [if_neg hdefault]
    by_cases hfallback : locale ∈ e.fallbacks
    · rw [if_pos hfallback, (hmem.mp hfallback).resolve_left hdefault]
      rfl
    · rw [if_neg hfallback]

/-- The arms of a complete entry: the fallbacks together, then each other
    language. -/
theorem Complete.arms_eq (h : e.Complete config) :
    ∃ phrase, e.defaultPhrase? = some phrase ∧
      e.arms config =
        ⟨e.fallbacks.map .ofLocale, phrase⟩ :: config.languages.filterMap e.ownArm? := by
  rcases Option.isSome_iff_exists.mp h.hasDefault with ⟨phrase, hphrase⟩
  have hdefault : e.defaultPhrase? = some phrase := by
    rw [defaultPhrase?, h.defaultLocale, hphrase]
  exact ⟨phrase, hdefault, by rw [arms, fallbackArm?, hdefault]; rfl⟩

/-- The languages in the own arms of some languages are those that are not
    fallbacks. -/
theorem Complete.locales_ownArms (h : e.Complete config)
    (languages : List String) (hsubset : languages ⊆ config.languages) :
    (languages.filterMap e.ownArm?).flatMap Arm.locales =
      (languages.filter (fun locale => !decide (locale ∈ e.fallbacks))).map .ofLocale := by
  induction languages with
  | nil => rfl
  | cons locale rest ih =>
      have hlocale := hsubset List.mem_cons_self
      have hrest := ih (fun other hother => hsubset (List.mem_cons_of_mem _ hother))
      have hown := h.ownArm?_eq locale hlocale
      by_cases hfallback : locale ∈ e.fallbacks
      · rw [if_pos hfallback] at hown
        rw [List.filterMap_cons_none hown, List.filter_cons_of_neg (by simpa using hfallback),
          hrest]
      · rw [if_neg hfallback] at hown
        have hmem := h.mem_fallbacks_iff locale hlocale
        -- A language that does not fall back has a phrase, so no arm is left out for the lack
        -- of one.
        cases hphrase : e.phrases.get? locale with
        | none => exact absurd (hmem.mpr (Or.inr hphrase)) hfallback
        | some phrase =>
            rw [hphrase, Option.map_some] at hown
            rw [List.filterMap_cons_some hown, List.filter_cons_of_pos (by simpa using hfallback),
              List.flatMap_cons, hrest]
            rfl

/-- The fallbacks are in the order of the languages. -/
theorem Complete.fallbacks_eq_filter (h : e.Complete config) :
    e.fallbacks = config.languages.filter (fun locale => decide (locale ∈ e.fallbacks)) := by
  refine h.fallbacks.trans (List.filter_congr (fun locale hlocale => ?_))
  rw [h.fallbacks]
  simp only [List.mem_filter, hlocale, true_and, Bool.decide_eq_true]

/-- The arms hold every language once. -/
theorem Complete.perm_arms (h : e.Complete config) :
    ((e.arms config).flatMap Arm.locales).Perm config.localeConstants := by
  rcases h.arms_eq with ⟨phrase, -, harms⟩
  rw [harms, List.flatMap_cons, h.locales_ownArms _ (List.Subset.refl _)]
  -- The languages are split by whether they are fallbacks.
  rw [Config.localeConstants, ← List.map_append]
  refine List.Perm.map _ ?_
  nth_rewrite 1 [h.fallbacks_eq_filter]
  exact List.filter_append_perm _ config.languages

/-- Every language has its arm, with the phrase that the entry has for it. -/
theorem Complete.armOf_mem_arms (h : e.Complete config)
    (locale : String) (hlocale : locale ∈ config.languages) :
    ∃ phrase, e.phraseFor? locale = some phrase ∧ e.armOf locale phrase ∈ e.arms config ∧
      LocaleConstant.ofLocale locale ∈ (e.armOf locale phrase).locales := by
  rcases h.arms_eq with ⟨default, hdefault, harms⟩
  have hmem := h.mem_fallbacks_iff locale hlocale
  rw [harms, phraseFor?]
  -- A language that falls back is in the first arm, any other one has an arm of its own.
  by_cases hfallback : locale ∈ e.fallbacks
  · refine ⟨default, by rw [if_pos hfallback, hdefault], ?_, ?_⟩
    · rw [armOf, if_pos hfallback]
      exact List.mem_cons_self
    · rw [armOf, if_pos hfallback]
      exact List.mem_map_of_mem hfallback
  · rw [if_neg hfallback]
    cases hphrase : e.phrases.get? locale with
    | none => exact absurd (hmem.mpr (Or.inr hphrase)) hfallback
    | some phrase =>
        refine ⟨phrase, rfl, List.mem_cons_of_mem _ (List.mem_filterMap.mpr ⟨locale, hlocale, ?_⟩),
          ?_⟩
        · rw [h.ownArm?_eq locale hlocale, if_neg hfallback, hphrase, armOf,
            if_neg hfallback]
          rfl
        · rw [armOf, if_neg hfallback]
          exact List.mem_singleton_self _

/-- A language is in no other arm than its own. -/
theorem Complete.eq_armOf_of_mem_arms (h : e.Complete config)
    (locale : String) (phrase : Phrase) (hphrase : e.phraseFor? locale = some phrase) (arm : Arm)
    (harm : arm ∈ e.arms config) (hlocale : LocaleConstant.ofLocale locale ∈ arm.locales) :
    arm = e.armOf locale phrase := by
  rcases h.arms_eq with ⟨default, hdefault, harms⟩
  rw [harms] at harm
  rcases List.mem_cons.mp harm with rfl | hown
  · -- In the first arm there are fallbacks only.
    rcases List.mem_map.mp hlocale with ⟨other, hother, heq⟩
    have hsame : other = locale := congrArg LocaleConstant.locale heq
    rw [hsame] at hother
    rw [phraseFor?, if_pos hother, hdefault] at hphrase
    cases hphrase
    rw [armOf, if_pos hother]
  · -- Any other arm is that of one language, and no fallback has one.
    rcases List.mem_filterMap.mp hown with ⟨other, hother, heq⟩
    rw [h.ownArm?_eq other hother] at heq
    by_cases hfallback : other ∈ e.fallbacks
    · rw [if_pos hfallback] at heq
      cases heq
    · rw [if_neg hfallback] at heq
      rcases Option.map_eq_some_iff.mp heq with ⟨own, hget, rfl⟩
      have hsame : locale = other :=
        congrArg LocaleConstant.locale (List.mem_singleton.mp hlocale)
      subst hsame
      rw [phraseFor?, if_neg hfallback, hget] at hphrase
      cases hphrase
      rw [armOf, if_neg hfallback]
      rfl

end Entry

/-- The phrase of the text that a locale has for a key. -/
def ownPhrase? (config : Config) (base : Dict String) (editions : List Edition)
    (locale key : String) : Option Phrase :=
  (textOf? config base editions locale key).bind
    (fun text => (Reading.ofText config.customTypes text).toOption.map Reading.phrase)

section Merged

variable {config : Config} {base : Dict String} {editions : List Edition} {key text : String}
  {entry : Entry}

/-- Merged entries are complete. -/
theorem complete_of_mergeKey (h : mergeKey config editions key text = .ok entry) :
    entry.Complete config := by
  rcases (mergeKey_eq_ok_iff _ _ _ _ _).mp h with ⟨default, others, -, -, rfl⟩
  refine ⟨rfl, ?_, rfl⟩
  rw [Dict.get?_insert, if_pos rfl]
  rfl

/-- What merging makes of the text of a locale, which is the default text if the
    locale has none: it can be read, and for a locale other than the default its
    phrase is kept if it differs from the default phrase. -/
theorem phrases_of_mergeKey (h : mergeKey config editions key text = .ok entry)
    (hdistinct : (editions.map Edition.locale).Nodup) (htext : base.get? key = some text) :
    ∃ default, Reading.ofText config.customTypes text = .ok default ∧
      entry.phrases.get? config.defaultLanguage = some default.phrase ∧
      ∀ locale, ∃ reading,
        Reading.ofText config.customTypes ((textOf? config base editions locale key).getD text)
          = .ok reading ∧
        (locale = config.defaultLanguage → reading = default) ∧
        (locale ≠ config.defaultLanguage → entry.phrases.get? locale =
          if reading.phrase = default.phrase then none else some reading.phrase) := by
  rcases (mergeKey_eq_ok_iff _ _ _ _ _).mp h with ⟨default, others, hdefault, hothers, rfl⟩
  refine ⟨default, hdefault, by rw [Dict.get?_insert, if_pos rfl], ?_⟩
  intro locale
  by_cases hlocale : locale = config.defaultLanguage
  · refine ⟨default, ?_, fun _ => rfl, fun hne => absurd hlocale hne⟩
    rw [textOf?, if_pos hlocale, htext]
    exact hdefault
  · -- The default phrase is added last, under another locale.
    have hget := get?_of_foldlM_addEdition config.customTypes key default editions hdistinct
      .empty others hothers locale Dict.get?_empty
    rw [textOf?, if_neg hlocale]
    simp only [Dict.get?_insert, if_neg hlocale]
    -- Without a text of its own a locale has no phrase, and reads the default text.
    cases hown : textIn? editions locale key with
    | none =>
        refine ⟨default, hdefault, fun heq => absurd heq hlocale, fun _ => ?_⟩
        rw [if_pos rfl]
        exact hget.1 hown
    | some own =>
        rcases hget.2 own hown with ⟨reading, hreading, -, hphrase⟩
        exact ⟨reading, hreading, fun heq => absurd heq hlocale, fun _ => hphrase⟩

/-- A merged entry has for every language the phrase that its text reads as, and
    the language is a fallback exactly if that is the default phrase. -/
theorem phraseFor?_of_mergeKey (h : mergeKey config editions key text = .ok entry)
    (hdistinct : (editions.map Edition.locale).Nodup) (htext : base.get? key = some text) :
    ∃ default, Reading.ofText config.customTypes text = .ok default ∧
      entry.defaultPhrase? = some default.phrase ∧
      ∀ locale ∈ config.languages, ∃ reading,
        Reading.ofText config.customTypes ((textOf? config base editions locale key).getD text)
          = .ok reading ∧
        entry.phraseFor? locale = some reading.phrase ∧
        (locale ∈ entry.fallbacks ↔ reading.phrase = default.phrase) := by
  have hcomplete := complete_of_mergeKey h
  rcases phrases_of_mergeKey h hdistinct htext with ⟨default, hdefault, hphrase, hread⟩
  have hshown : entry.defaultPhrase? = some default.phrase := by
    rw [Entry.defaultPhrase?, hcomplete.defaultLocale, hphrase]
  refine ⟨default, hdefault, hshown, ?_⟩
  intro locale hlocale
  rcases hread locale with ⟨reading, hreading, hsame, hother⟩
  have hmem := hcomplete.mem_fallbacks_iff locale hlocale
  refine ⟨reading, hreading, ?_⟩
  rw [Entry.phraseFor?, hshown]
  -- Among the others, a language is a fallback exactly if no phrase was kept.
  by_cases heq : locale = config.defaultLanguage
  · have hin := hmem.mpr (Or.inl heq)
    rw [if_pos hin, hsame heq]
    exact ⟨rfl, iff_of_true hin rfl⟩
  · rw [or_iff_right heq, hother heq] at hmem
    by_cases hread : reading.phrase = default.phrase
    · have hin := hmem.mpr (if_pos hread)
      rw [if_pos hin, hread]
      exact ⟨rfl, iff_of_true hin rfl⟩
    · have hout : locale ∉ entry.fallbacks := by
        intro hin
        have hnone := hmem.mp hin
        rw [if_neg hread] at hnone
        cases hnone
      rw [if_neg hout, hother heq, if_neg hread]
      exact ⟨rfl, iff_of_false hout hread⟩

/-- What it is to read as the default text: to have no text, or one that reads as
    the default phrase. -/
theorem phrase_eq_iff (default reading : Reading) (locale : String)
    (htext : base.get? key = some text)
    (hdefault : Reading.ofText config.customTypes text = .ok default)
    (hreading : Reading.ofText config.customTypes
      ((textOf? config base editions locale key).getD text) = .ok reading) :
    reading.phrase = default.phrase ↔
      locale = config.defaultLanguage ∨ textOf? config base editions locale key = none ∨
        ownPhrase? config base editions locale key = some default.phrase := by
  rw [ownPhrase?]
  cases hown : textOf? config base editions locale key with
  | none =>
      rw [hown, Option.getD_none, hdefault] at hreading
      cases hreading
      exact iff_of_true rfl (Or.inr (Or.inl rfl))
  | some own =>
      rw [hown, Option.getD_some] at hreading
      simp only [Option.bind_some, hreading, Except.toOption, Option.map_some, Option.some.injEq,
        reduceCtorEq, false_or]
      -- A text of the default language is the default text.
      refine ⟨Or.inr, fun h => h.elim (fun hlocale => ?_) id⟩
      rw [textOf?, if_pos hlocale, htext] at hown
      cases hown
      rw [hdefault] at hreading
      cases hreading
      rfl

end Merged

/-- Every language shows its own text. The arms of an entry hold the constants of
    all languages, each once, and start with the fallbacks, of which the default
    language is one. The one arm of a language has the phrase that its text for the
    key reads as, or the default text if it has none. The fallbacks are the
    languages whose phrase is the default one, in configured order. -/
theorem compile_routes (config : Config) (base : Dict String) (editions : List Edition)
    (c : Catalogue) (hvalid : config.Valid) (hdistinct : (editions.map Edition.locale).Nodup)
    (h : compile config base editions = .ok c) (key text : String)
    (htext : base.get? key = some text) :
    ∃ place entry default, Placement.ofKey config.groupSuffix? key = .ok place ∧
      c.entryAt? place = some entry ∧
      Reading.ofText config.customTypes text = .ok default ∧
      ((entry.arms config).flatMap Arm.locales).Perm config.localeConstants ∧
      (((entry.arms config).flatMap Arm.locales).map LocaleConstant.constant).Nodup ∧
      (∃ own, entry.arms config =
        ⟨entry.fallbacks.map .ofLocale, default.phrase⟩ :: own) ∧
      config.defaultLanguage ∈ entry.fallbacks ∧
      (∀ locale ∈ config.languages, ∃ reading, ∃ arm ∈ entry.arms config,
        Reading.ofText config.customTypes ((textOf? config base editions locale key).getD text)
          = .ok reading ∧
        LocaleConstant.ofLocale locale ∈ arm.locales ∧
        (∀ other ∈ entry.arms config, LocaleConstant.ofLocale locale ∈ other.locales →
          other = arm) ∧
        arm.phrase = reading.phrase ∧ entry.phraseFor? locale = some reading.phrase) ∧
      entry.fallbacks = config.languages.filter (fun locale =>
        locale = config.defaultLanguage ∨ textOf? config base editions locale key = none ∨
          ownPhrase? config base editions locale key = some default.phrase) := by
  rcases (Fallible.bind_eq_ok_iff _ _ _).mp h with ⟨entries, hmerge, hentries⟩
  rcases get?_of_merge config base editions entries hmerge key text htext with
    ⟨entry, hentry, hget⟩
  rcases (Catalogue.arranges_ofEntries config entries c hentries).placed key entry
    ((Dict.mem_pairs_iff entries key entry).mpr hget) with ⟨place, hplace, hat⟩
  have hcomplete := complete_of_mergeKey hentry
  rcases phraseFor?_of_mergeKey hentry hdistinct htext with ⟨default, hdefault, hshown, hread⟩
  rcases hcomplete.arms_eq with ⟨first, hfirst, harms⟩
  have hperm := hcomplete.perm_arms
  have hfirstPhrase : first = default.phrase := Option.some.inj (hfirst.symm.trans hshown)
  have hdefaultMem := Config.Valid.defaultLanguage_mem config hvalid
  refine ⟨place, entry, default, hplace, hat, hdefault, hperm, ?_, ⟨_, hfirstPhrase ▸ harms⟩,
    (hcomplete.mem_fallbacks_iff _ hdefaultMem).mpr (Or.inl rfl), ?_, ?_⟩
  · -- Locales with one constant would be one repetition; validity excludes them.
    refine (hperm.map LocaleConstant.constant).nodup_iff.mpr ?_
    rw [Config.localeConstants, List.map_map]
    exact Config.Valid.nodup_constants config hvalid
  -- Each language is in the arm of its own phrase, and arms with one locale are one arm.
  · intro locale hlocale
    rcases hcomplete.armOf_mem_arms locale hlocale with ⟨phrase, hphrase, hmem, hin⟩
    rcases hread locale hlocale with ⟨reading, hreading, hshows, -⟩
    refine ⟨reading, entry.armOf locale phrase, hmem, hreading, hin, ?_,
      Option.some.inj (hphrase.symm.trans hshows), hshows⟩
    intro other hmem' hin'
    exact hcomplete.eq_armOf_of_mem_arms locale phrase hphrase other hmem' hin'
  -- Those that fall back are those whose text reads like the default one.
  · refine hcomplete.fallbacks_eq_filter.trans (List.filter_congr (fun locale hlocale => ?_))
    rcases hread locale hlocale with ⟨reading, hreading, -, hmem⟩
    exact decide_eq_decide.mpr
      (hmem.trans (phrase_eq_iff default reading locale htext hdefault hreading))

/-- Of three languages one is the default, one has a text of its own and one has
    none. -/
theorem compile_routes_greeting : ∃ config base editions c place entry,
    Config.Valid config ∧ config.languages = ["de", "en", "fr"] ∧
    editions.map Edition.locale = ["en"] ∧ compile config base editions = .ok c ∧
    c.entryAt? place = some entry ∧ entry.fallbacks = ["de", "fr"] := by
  let config : Config := { Config.default with languages := ["de", "en", "fr"] }
  let base : Dict String := .ofList [("app.greeting", "Hallo {name}")]
  let editions : List Edition := [⟨"en", .ofList [("app.greeting", "Hello {name}")]⟩]
  have hvalid : config.Valid := by decide +kernel
  have hok : (compile config base editions).isOk = true := by decide +kernel
  cases h : compile config base editions with
  | error defect =>
      rw [h] at hok
      cases hok
  | ok c =>
      rcases compile_routes config base editions c hvalid (by decide) h "app.greeting"
        "Hallo {name}" (by decide +kernel) with
        ⟨place, entry, default, -, hat, hdefault, -, -, -, -, -, hfallbacks⟩
      -- What the fallbacks are compared with is the phrase of the default text.
      have hphrase : (Reading.ofText config.customTypes "Hallo {name}").toOption.map
          Reading.phrase = some ⟨[.literal "Hallo ", .slot "name" .bare]⟩ := by decide +kernel
      rw [hdefault] at hphrase
      refine ⟨config, base, editions, c, place, entry, hvalid, rfl, rfl, h, hat, ?_⟩
      rw [hfallbacks, Option.some.inj hphrase]
      decide +kernel

end Phrasebook
