import Phrasebook.Catalogue.Merge
import Phrasebook.Proofs.Dict

/-!
# What Merging Knows of Each Locale

The phrases of an entry are gathered by going through the editions, each of which
may add one. A phrase is added only if the edition has the key and its text does
not read as the default one, so the dictionary that results answers for a locale
in one of two ways: with the phrase of its own text, or not at all, and then the
default phrase is shown. `get?_of_foldlM_addEdition` says which it is for every
locale, in terms of the text that the locale has.

Editions with one locale would overwrite each other. Their locales are therefore
taken to be different; a configuration lists each once.

## Main definitions

* `textIn?`: The text that editions have for a locale and a key.
* `textOf?`: The same for any locale, the default one included.

## Theorems

* `addEdition_eq_ok_iff`: What an edition adds.
* `get?_of_foldlM_of_forall_ne`: Editions change nothing for other locales.
* `get?_of_foldlM_addEdition`: What all editions add for a locale.
* `mergeKey_eq_ok_iff`: The entry of a key.
* `get?_of_merge`: Every key of the default messages has an entry.
* `exists_mergeKey_of_merge`: There are no other entries.
-/

namespace Phrasebook

/-- The text that the editions have for a locale and a key. -/
def textIn? (editions : List Edition) (locale key : String) : Option String :=
  (editions.find? (fun edition => edition.locale = locale)).bind
    (fun edition => edition.messages.get? key)

/-- The text that a locale has for a key, if it has one. -/
def textOf? (config : Config) (base : Dict String) (editions : List Edition)
    (locale key : String) : Option String :=
  if locale = config.defaultLanguage then base.get? key else textIn? editions locale key

/-- What an edition adds: nothing without a text, otherwise the phrase of its text
    if that differs from the default one. -/
theorem addEdition_eq_ok_iff (types : Dict CustomType) (key : String) (base : Reading)
    (phrases phrases' : Dict Phrase) (edition : Edition) :
    addEdition types key base phrases edition = .ok phrases' ↔
      (edition.messages.get? key = none ∧ phrases' = phrases) ∨
      ∃ text reading, edition.messages.get? key = some text ∧
        Reading.ofText types text = .ok reading ∧ reading.signature = base.signature ∧
        phrases' = if reading.phrase = base.phrase then phrases
          else phrases.insert edition.locale reading.phrase := by
  rw [addEdition]
  cases edition.messages.get? key with
  | none =>
      simp only [Except.ok.injEq, true_and, reduceCtorEq, false_and, exists_false, or_false]
      exact eq_comm
  | some text =>
      simp only [reduceCtorEq, false_and, false_or, Option.some.injEq, exists_and_left,
        exists_eq_left']
      rw [Fallible.bind_eq_ok_iff]
      refine exists_congr (fun reading => and_congr_right (fun _ => ?_))
      -- The signature is compared before the phrase.
      by_cases hsignature : reading.signature = base.signature
      · rw [if_neg (not_not_intro hsignature), ← apply_ite Except.ok, Except.ok.injEq]
        exact ⟨fun h => ⟨hsignature, h.symm⟩, fun h => h.2.symm⟩
      · rw [if_pos hsignature]
        constructor
        · intro h
          cases h
        · intro h
          exact absurd h.1 hsignature

/-- An edition changes nothing for other locales. -/
theorem get?_of_addEdition_of_ne (types : Dict CustomType) (key : String) (base : Reading)
    (phrases phrases' : Dict Phrase) (edition : Edition)
    (h : addEdition types key base phrases edition = .ok phrases') (locale : String)
    (hne : edition.locale ≠ locale) : phrases'.get? locale = phrases.get? locale := by
  rcases (addEdition_eq_ok_iff _ _ _ _ _ _).mp h with ⟨-, rfl⟩ | ⟨text, reading, -, -, -, rfl⟩
  · rfl
  · by_cases hphrase : reading.phrase = base.phrase
    · rw [if_pos hphrase]
    · rw [if_neg hphrase, Dict.get?_insert, if_neg (fun heq => hne heq.symm)]

/-- Editions change nothing for other locales. -/
theorem get?_of_foldlM_of_forall_ne (types : Dict CustomType) (key : String) (base : Reading)
    (editions : List Edition) (phrases others : Dict Phrase)
    (h : editions.foldlM (addEdition types key base) phrases = .ok others) (locale : String)
    (hne : ∀ edition ∈ editions, edition.locale ≠ locale) :
    others.get? locale = phrases.get? locale := by
  induction editions generalizing phrases with
  | nil =>
      cases h
      rfl
  | cons edition rest ih =>
      rcases (Fallible.foldlM_cons_eq_ok_iff _ _ _ _ _).mp h with ⟨next, hnext, hrest⟩
      rw [ih next hrest (fun e he => hne e (List.mem_cons_of_mem _ he)),
        get?_of_addEdition_of_ne types key base phrases next edition hnext locale
          (hne edition List.mem_cons_self)]

/-- What the editions add for a locale: nothing if it has no text, otherwise the
    phrase of its text, unless that is the default phrase. -/
theorem get?_of_foldlM_addEdition (types : Dict CustomType) (key : String) (base : Reading)
    (editions : List Edition) (hdistinct : (editions.map Edition.locale).Nodup)
    (phrases others : Dict Phrase)
    (h : editions.foldlM (addEdition types key base) phrases = .ok others) (locale : String)
    (hfree : phrases.get? locale = none) :
    (textIn? editions locale key = none → others.get? locale = none) ∧
      ∀ text, textIn? editions locale key = some text → ∃ reading,
        Reading.ofText types text = .ok reading ∧ reading.signature = base.signature ∧
        others.get? locale = if reading.phrase = base.phrase then none else some reading.phrase := by
  -- Until its edition comes up, the locale has no phrase.
  induction editions generalizing phrases with
  | nil =>
      cases h
      exact ⟨fun _ => hfree, fun text htext => by cases htext⟩
  | cons edition rest ih =>
      rcases (Fallible.foldlM_cons_eq_ok_iff _ _ _ _ _).mp h with ⟨next, hnext, hrest⟩
      rcases List.nodup_cons.mp hdistinct with ⟨hfirst, hdistinct⟩
      by_cases hlocale : edition.locale = locale
      · -- The edition of the locale: those behind it have other locales.
        have hafter : others.get? locale = next.get? locale := by
          refine get?_of_foldlM_of_forall_ne types key base rest next others hrest locale ?_
          intro other hother heq
          exact hfirst (List.mem_map.mpr ⟨other, hother, heq.trans hlocale.symm⟩)
        have htext : textIn? (edition :: rest) locale key = edition.messages.get? key := by
          have hpos : decide (edition.locale = locale) = true := decide_eq_true hlocale
          simp only [textIn?, List.find?_cons, hpos, Option.bind_some]
        rw [hafter, htext]
        rcases (addEdition_eq_ok_iff _ _ _ _ _ _).mp hnext with
          ⟨hnone, rfl⟩ | ⟨text, reading, hsome, hreading, hsignature, rfl⟩
        · rw [hnone]
          exact ⟨fun _ => hfree, fun text hcontra => by cases hcontra⟩
        · rw [hsome]
          refine ⟨fun hcontra => by (cases hcontra), fun text' htext' => ?_⟩
          cases htext'
          refine ⟨reading, hreading, hsignature, ?_⟩
          by_cases hphrase : reading.phrase = base.phrase
          · rw [if_pos hphrase, if_pos hphrase, hfree]
          · rw [if_neg hphrase, if_neg hphrase, Dict.get?_insert, if_pos hlocale.symm]
      · -- The edition of another locale, which leaves this one alone.
        have htext : textIn? (edition :: rest) locale key = textIn? rest locale key := by
          have hneg : decide (edition.locale = locale) = false := decide_eq_false hlocale
          simp only [textIn?, List.find?_cons, hneg]
        have hnextFree : next.get? locale = none := by
          rw [get?_of_addEdition_of_ne types key base phrases next edition hnext locale hlocale,
            hfree]
        rw [htext]
        exact ih hdistinct next hrest hnextFree

/-- The entry of a key: the phrases that the editions add and the default one, and
    as fallbacks the default language and those without a phrase. -/
theorem mergeKey_eq_ok_iff (config : Config) (editions : List Edition) (key text : String)
    (entry : Entry) :
    mergeKey config editions key text = .ok entry ↔ ∃ base others,
      Reading.ofText config.customTypes text = .ok base ∧
      editions.foldlM (addEdition config.customTypes key base) .empty = .ok others ∧
      entry = {
        arguments := base.signature
        phrases := others.insert config.defaultLanguage base.phrase
        defaultLocale := config.defaultLanguage
        fallbacks := config.languages.filter (fun language => language = config.defaultLanguage ∨
          !(others.insert config.defaultLanguage base.phrase).contains language) } := by
  rw [mergeKey, Fallible.bind_eq_ok_iff]
  constructor
  · rintro ⟨base, hbase, h⟩
    rcases (Fallible.bind_eq_ok_iff _ _ _).mp h with ⟨others, hothers, h⟩
    cases h
    exact ⟨base, others, hbase, hothers, rfl⟩
  · rintro ⟨base, others, hbase, hothers, rfl⟩
    exact ⟨base, hbase, (Fallible.bind_eq_ok_iff _ _ _).mpr ⟨others, hothers, rfl⟩⟩

/-- If merging succeeds it is the merging of each key. -/
theorem mapM_of_merge (config : Config) (base : Dict String) (editions : List Edition)
    (entries : Dict Entry) (h : merge config base editions = .ok entries) :
    base.mapM (mergeKey config editions) = .ok entries := by
  rw [merge] at h
  split at h
  · cases h
  · exact h

/-- Every key of the default messages has an entry. -/
theorem get?_of_merge (config : Config) (base : Dict String) (editions : List Edition)
    (entries : Dict Entry) (h : merge config base editions = .ok entries) (key text : String)
    (htext : base.get? key = some text) :
    ∃ entry, mergeKey config editions key text = .ok entry ∧ entries.get? key = some entry :=
  Dict.get?_of_mapM _ base entries (mapM_of_merge config base editions entries h) key text htext

/-- Every entry is the merging of a key of the default messages. -/
theorem exists_mergeKey_of_merge (config : Config) (base : Dict String) (editions : List Edition)
    (entries : Dict Entry) (h : merge config base editions = .ok entries) (key : String)
    (entry : Entry) (hentry : entries.get? key = some entry) :
    ∃ text, base.get? key = some text ∧ mergeKey config editions key text = .ok entry := by
  have hkeys := Dict.keys_of_mapM _ base entries (mapM_of_merge config base editions entries h)
  -- Merging keeps the keys, so the entry comes from a default text.
  have hkey : key ∈ base.keys := by
    rw [← hkeys]
    exact (Dict.mem_keys_iff entries key).mpr ⟨entry, hentry⟩
  rcases (Dict.mem_keys_iff base key).mp hkey with ⟨text, htext⟩
  rcases get?_of_merge config base editions entries h key text htext with
    ⟨entry', hmerged, hentry'⟩
  rw [hentry, Option.some.injEq] at hentry'
  exact ⟨text, htext, hentry' ▸ hmerged⟩

end Phrasebook
