import Phrasebook.Catalogue.Compile
import Phrasebook.Emission.Dispatch
import Phrasebook.Proofs.Acceptance
import Phrasebook.Proofs.Catalogue
import Phrasebook.Proofs.Reading
import Phrasebook.Proofs.Rendering

/-!
# Arguments Agree in Every Language

A message type has one field for each argument, whatever the language, and each
language fills in its own phrase. That works only if the phrase asks for the
fields and for nothing else, and if the tokens of its text mean the types of the
fields. Four things have to fit: the slots of the phrase, the table of arguments
by token, the signature by variable, in which tokens may fall together, and the
fields, which are those of the default text alone.

What ties them is the signature. A reading asks exactly for the variables of its
signature, and merging lets a text through only if its signature is that of the
default text. So every phrase of an entry is `Spoken` with the arguments of the
entry, and every text that was merged `Fits` them. What a phrase asks for is what its
rendering depends on, so a field without use, or a value without a field, would show in
the text.

## Main definitions

* `Shape.fields`: The fields of a shape.
* `Fits`: The tokens of a text are those of some fields.
* `Spoken`: A phrase is the reading of a text with some signature.

## Theorems

* `Reading.asked_of_ofText`: A phrase asks for the names of the tokens.
* `Reading.mem_signature_iff`: The signature has their names and types.
* `Spoken.mem_asked_iff`: A phrase asks for the variables of its signature.
* `spoken_of_addEdition`, `spoken_of_mergeKey`: What one edition keeps, and what an
  entry has.
* `fits_of_signature`: A text fits the fields of its signature.
* `compile_arguments`: Every phrase and every text of a message has the arguments
  of its fields.
-/

namespace Phrasebook

/-- The fields of a shape. A single value has none. -/
def Shape.fields : Shape → List Field
  | single => []
  | record fields => fields

/-- The tokens of a text are those of some fields: each names a field, each field
    is named, and all tokens that name a field have its type. -/
structure Fits (types : Dict CustomType) (fields : List Field) (text : String) : Prop where
  named : ∀ t ∈ tokensOf text, String.ofList t.name ∈ fields.map Field.name
  used : ∀ field ∈ fields, ∃ t ∈ tokensOf text, String.ofList t.name = field.name
  typed : ∀ field ∈ fields, ∀ t ∈ tokensOf text, String.ofList t.name = field.name →
    ∃ a, Argument.resolve types field.name t.typeIdentifier = .ok a ∧ a.typeName = field.typeName

/-- A phrase is the reading of some text with the given signature. -/
def Spoken (types : Dict CustomType) (signature : Signature) (phrase : Phrase) : Prop :=
  ∃ text reading, Reading.ofText types text = .ok reading ∧ reading.signature = signature ∧
    reading.phrase = phrase

namespace Reading

variable (types : Dict CustomType) (text : String) (r : Reading)

theorem asked?_ofGap (gap : List Char) : (Piece.ofGap gap).filterMap Piece.asked? = [] := by
  unfold Piece.ofGap
  by_cases hgap : gap = []
  · rw [if_pos hgap]
    rfl
  · rw [if_neg hgap]
    rfl

/-- Only the slots of parts ask for something. -/
theorem asked?_pieces (parts : List Part) (tail : List Char) :
    (parts.flatMap Part.pieces ++ Piece.ofGap tail).filterMap Piece.asked? =
      parts.map (fun p => String.ofList p.token.name) := by
  induction parts with
  | nil => exact asked?_ofGap tail
  | cons p parts ih =>
      -- A gap asks for nothing, so a part asks for the name of its token.
      have hpart : p.pieces.filterMap Piece.asked? = [String.ofList p.token.name] := by
        unfold Part.pieces
        rw [List.filterMap_append, asked?_ofGap]
        rfl
      rw [List.flatMap_cons, List.append_assoc, List.filterMap_append, ih, hpart]
      rfl

/-- A phrase asks for the names of the tokens of its text. -/
theorem asked_of_ofText (h : ofText types text = .ok r) :
    r.phrase.asked = (tokensOf text).map (fun t => String.ofList t.name) := by
  rcases parts_of_ofText types text r h with ⟨parts, tail, hcutting, -, hpieces, -, -, -⟩
  rw [Phrase.asked, hpieces, asked?_pieces, tokensOf_eq text parts tail hcutting, List.map_map]
  rfl

/-- A signature has the names of the tokens of its text, with the types that they
    mean. -/
theorem mem_signature_iff (h : ofText types text = .ok r) (name type : String) :
    r.signature.get? name = some type ↔ ∃ t ∈ tokensOf text, String.ofList t.name = name ∧
      ∃ a, Argument.resolve types (String.ofList t.name) t.typeIdentifier = .ok a ∧
        a.typeName = type := by
  rcases parts_of_ofText types text r h with
    ⟨parts, tail, hcutting, hnames, -, htable, hsize, hconflict⟩
  rw [get?_signature_iff types parts r hnames htable hsize hconflict,
    tokensOf_eq text parts tail hcutting]
  constructor
  · rintro ⟨p, hp, hname, htype⟩
    exact ⟨p.token, List.mem_map_of_mem hp, hname, p.argument, hnames p hp, htype⟩
  · rintro ⟨t, ht, hname, a, ha, htype⟩
    rcases List.mem_map.mp ht with ⟨p, hp, rfl⟩
    -- A token means one argument, which is that of its part.
    have hargument := hnames p hp
    rw [Part.Names, ha, Except.ok.injEq] at hargument
    exact ⟨p, hp, hname, hargument ▸ htype⟩

/-- Every token of a text that was read means a type, which is that of its variable
    in the signature. -/
theorem exists_type_of_mem_tokens (h : ofText types text = .ok r) (t : Token)
    (ht : t ∈ tokensOf text) :
    ∃ a, Argument.resolve types (String.ofList t.name) t.typeIdentifier = .ok a ∧
      r.signature.get? (String.ofList t.name) = some a.typeName := by
  rcases parts_of_ofText types text r h with ⟨parts, tail, hcutting, hnames, -, -, -, -⟩
  have hpart := ht
  rw [tokensOf_eq text parts tail hcutting] at hpart
  rcases List.mem_map.mp hpart with ⟨p, hp, rfl⟩
  exact ⟨p.argument, hnames p hp, (mem_signature_iff types text r h _ _).mpr
    ⟨p.token, ht, rfl, p.argument, hnames p hp, rfl⟩⟩

end Reading

/-- A phrase asks exactly for the variables of its signature. -/
theorem Spoken.mem_asked_iff (types : Dict CustomType) (signature : Signature) (phrase : Phrase)
    (h : Spoken types signature phrase) (name : String) :
    name ∈ phrase.asked ↔ name ∈ signature.keys := by
  rcases h with ⟨text, reading, hread, rfl, rfl⟩
  rw [Reading.asked_of_ofText types text reading hread, List.mem_map, Dict.mem_keys_iff]
  constructor
  · rintro ⟨t, ht, rfl⟩
    rcases Reading.exists_type_of_mem_tokens types text reading hread t ht with ⟨a, -, htype⟩
    exact ⟨a.typeName, htype⟩
  · rintro ⟨type, htype⟩
    rcases (Reading.mem_signature_iff types text reading hread name type).mp htype with
      ⟨t, ht, hname, -⟩
    exact ⟨t, ht, hname⟩

namespace Entry

variable (e : Entry)

theorem fields_shape :
    e.shape.fields = e.arguments.pairs.map (fun (name, type) => ⟨name, type⟩) := by
  unfold shape hasArguments Dict.isEmpty
  by_cases hpairs : e.arguments.pairs = []
  · rw [hpairs]
    rfl
  · have hempty : e.arguments.pairs.isEmpty = false := by
      rw [List.isEmpty_eq_false_iff]
      exact hpairs
    rw [hempty]
    rfl

/-- The fields of an entry are named for its arguments, by ascending name. -/
theorem names_fields : e.shape.fields.map Field.name = e.arguments.keys := by
  rw [fields_shape, List.map_map]
  rfl

/-- A field of an entry has the type of its argument. -/
theorem mem_fields_iff (field : Field) :
    field ∈ e.shape.fields ↔ e.arguments.get? field.name = some field.typeName := by
  rw [fields_shape, List.mem_map, ← Dict.mem_pairs_iff]
  constructor
  · rintro ⟨⟨name, type⟩, hpair, rfl⟩
    exact hpair
  · intro hpair
    exact ⟨(field.name, field.typeName), hpair, rfl⟩

/-- The phrase of an arm is one of the phrases of its entry. -/
theorem exists_phrase_of_mem_arms (config : Config) (arm : Arm) (h : arm ∈ e.arms config) :
    ∃ locale, e.phrases.get? locale = some arm.phrase := by
  rw [arms, List.mem_append] at h
  -- The fallback arm shows the default text, every other arm the text of its own locale.
  rcases h with hfallback | hown
  · rw [Option.mem_toList, fallbackArm?, Option.map_eq_some_iff] at hfallback
    rcases hfallback with ⟨phrase, hphrase, rfl⟩
    exact ⟨e.defaultLocale, hphrase⟩
  · rcases List.mem_filterMap.mp hown with ⟨locale, -, harm⟩
    rw [ownArm?] at harm
    by_cases hdefault : locale = e.defaultLocale
    · rw [if_pos hdefault] at harm
      cases harm
    · rw [if_neg hdefault, Option.map_eq_some_iff] at harm
      rcases harm with ⟨phrase, hphrase, rfl⟩
      exact ⟨locale, hphrase⟩

end Entry

section Merged

variable (types : Dict CustomType)

/-- Adding an edition keeps that all phrases are spoken with the arguments of the
    default text. -/
theorem spoken_of_addEdition (key : String) (base : Reading) (phrases phrases' : Dict Phrase)
    (edition : Edition)
    (hspoken : ∀ locale phrase, phrases.get? locale = some phrase →
      Spoken types base.signature phrase)
    (h : addEdition types key base phrases edition = .ok phrases') (locale : String)
    (phrase : Phrase) (hget : phrases'.get? locale = some phrase) :
    Spoken types base.signature phrase := by
  rcases (addEdition_eq_ok_iff _ _ _ _ _ _).mp h with
    ⟨-, rfl⟩ | ⟨text, reading, -, hread, hsignature, rfl⟩
  · exact hspoken locale phrase hget
  -- A text that reads like the default is not kept, so nothing new has to be shown for it.
  · by_cases hsame : reading.phrase = base.phrase
    · rw [if_pos hsame] at hget
      exact hspoken locale phrase hget
    · rw [if_neg hsame, Dict.get?_insert] at hget
      by_cases hlocale : locale = edition.locale
      · rw [if_pos hlocale, Option.some.injEq] at hget
        exact ⟨text, reading, hread, hsignature, hget⟩
      · rw [if_neg hlocale] at hget
        exact hspoken locale phrase hget

/-- A text that takes the arguments of an entry fits the fields of the entry. -/
theorem fits_of_signature (e : Entry) (text : String) (reading : Reading)
    (hread : Reading.ofText types text = .ok reading)
    (hsignature : reading.signature = e.arguments) :
    Fits types e.shape.fields text := by
  constructor
  · intro t ht
    rcases Reading.exists_type_of_mem_tokens types text reading hread t ht with ⟨a, -, htype⟩
    rw [Entry.names_fields, Dict.mem_keys_iff, ← hsignature]
    exact ⟨a.typeName, htype⟩
  · intro field hfield
    rw [Entry.mem_fields_iff, ← hsignature, Reading.mem_signature_iff types text reading hread]
      at hfield
    rcases hfield with ⟨t, ht, hname, -⟩
    exact ⟨t, ht, hname⟩
  · intro field hfield t ht hname
    rcases Reading.exists_type_of_mem_tokens types text reading hread t ht with ⟨a, ha, htype⟩
    -- The signature has one type for the variable, that of the field.
    rw [Entry.mem_fields_iff, ← hsignature, ← hname, htype, Option.some.injEq] at hfield
    exact ⟨a, hname ▸ ha, hfield⟩

variable (config : Config) (editions : List Edition) (key text : String) (entry : Entry)

/-- All phrases of a merged entry are spoken with its arguments. -/
theorem spoken_of_mergeKey (h : mergeKey config editions key text = .ok entry) (locale : String)
    (phrase : Phrase) (hphrase : entry.phrases.get? locale = some phrase) :
    Spoken config.customTypes entry.arguments phrase := by
  rcases (mergeKey_eq_ok_iff _ _ _ _ _).mp h with ⟨base, others, hbase, hothers, rfl⟩
  rw [Dict.get?_insert] at hphrase
  by_cases hlocale : locale = config.defaultLanguage
  · rw [if_pos hlocale, Option.some.injEq] at hphrase
    exact ⟨text, base, hbase, rfl, hphrase⟩
  · rw [if_neg hlocale] at hphrase
    -- The editions start from no phrases, and each keeps that all are spoken.
    refine Fallible.foldlM_invariant (fun phrases => ∀ locale phrase,
      phrases.get? locale = some phrase → Spoken config.customTypes base.signature phrase)
      _ editions .empty others ?_ ?_ hothers locale phrase hphrase
    · intro locale phrase hnone
      rw [Dict.get?_empty] at hnone
      cases hnone
    · intro phrases edition phrases' hspoken hadd
      exact spoken_of_addEdition config.customTypes key base phrases phrases' edition hspoken hadd

/-- Every text that was merged fits the fields of the entry, also a text that is
    left out since it equals the default one. -/
theorem fits_of_mergeKey (h : mergeKey config editions key text = .ok entry) (own : String)
    (hown : own = text ∨ ∃ edition ∈ editions, edition.messages.get? key = some own) :
    Fits config.customTypes entry.shape.fields own := by
  rcases (mergeKey_eq_ok_iff _ _ _ _ _).mp h with ⟨base, others, hbase, hothers, hentry⟩
  have harguments : base.signature = entry.arguments := by rw [hentry]
  rcases hown with rfl | ⟨edition, hedition, hget⟩
  · exact fits_of_signature config.customTypes entry own base hbase harguments
  -- The fold succeeded, so each text of an edition has the signature of the default.
  · have hagree := (exists_foldlM_addEdition_iff config.customTypes key base editions .empty).mp
      ⟨others, hothers⟩
    rcases hagree edition hedition own hget with ⟨reading, hread, hsignature⟩
    exact fits_of_signature config.customTypes entry own reading hread
      (hsignature.trans harguments)

end Merged

/-- The arguments of a message are the same in every language. Its fields have
    different names, every phrase that it has for a locale asks exactly for the
    fields, and so does the phrase of every arm: rendering it depends on the value of
    each field, and on no other. The message belongs to a key, and every text that a
    locale has for that key fits the fields: its tokens name all fields and nothing
    else, and all of them mean the type of the field. -/
theorem compile_arguments (config : Config) (base : Dict String) (editions : List Edition)
    (c : Catalogue) (h : compile config base editions = .ok c) (l : Catalogue.Located)
    (hl : l ∈ c.located) (name : String) (entry : Entry)
    (hentry : l.group.messages.get? name = some entry) :
    (entry.shape.fields.map Field.name).Nodup ∧
    (∀ locale phrase, entry.phrases.get? locale = some phrase →
      (∀ v, v ∈ phrase.asked ↔ v ∈ entry.shape.fields.map Field.name) ∧
      phrase.DependsOn (entry.shape.fields.map Field.name)) ∧
    (∀ arm ∈ entry.arms config,
      (∀ v, v ∈ arm.phrase.asked ↔ v ∈ entry.shape.fields.map Field.name) ∧
      arm.phrase.DependsOn (entry.shape.fields.map Field.name)) ∧
    (∃ key ∈ base.keys,
      Placement.ofKey config.groupSuffix? key = .ok ⟨l.package, l.path, name⟩) ∧
    ∀ key text, base.get? key = some text →
      Placement.ofKey config.groupSuffix? key = .ok ⟨l.package, l.path, name⟩ →
      ∀ own, (own = text ∨ ∃ edition ∈ editions, edition.messages.get? key = some own) →
        Fits config.customTypes entry.shape.fields own := by
  rcases (Fallible.bind_eq_ok_iff _ _ _).mp h with ⟨entries, hmerge, hentries⟩
  have harranges := Catalogue.arranges_ofEntries config entries c hentries
  have hat : c.entryAt? ⟨l.package, l.path, name⟩ = some entry := by
    rw [Catalogue.entryAt?_of_mem_located _ _ c harranges l hl, hentry]
  rcases harranges.keyed _ entry hat with ⟨key, hmem, hplace⟩
  rcases exists_mergeKey_of_merge config base editions entries hmerge key entry
    ((Dict.mem_pairs_iff entries key entry).mp hmem) with ⟨text, htext, hmerged⟩
  have hasked : ∀ locale phrase, entry.phrases.get? locale = some phrase →
      (∀ v, v ∈ phrase.asked ↔ v ∈ entry.shape.fields.map Field.name) ∧
      phrase.DependsOn (entry.shape.fields.map Field.name) := by
    intro locale phrase hphrase
    have hspoken :=
      spoken_of_mergeKey config editions key text entry hmerged locale phrase hphrase
    have hfields : ∀ v, v ∈ phrase.asked ↔ v ∈ entry.shape.fields.map Field.name := by
      rw [Entry.names_fields]
      exact Spoken.mem_asked_iff _ _ phrase hspoken
    exact ⟨hfields, (phrase.dependsOn_iff _).mpr hfields⟩
  refine ⟨?_, hasked, ?_, ⟨key, (Dict.mem_keys_iff base key).mpr ⟨text, htext⟩, hplace⟩, ?_⟩
  · rw [Entry.names_fields]
    exact Dict.nodup_keys entry.arguments
  · intro arm harm
    rcases Entry.exists_phrase_of_mem_arms entry config arm harm with ⟨locale, hphrase⟩
    exact hasked locale arm.phrase hphrase
  · intro other own hown hplaced
    -- What is found at the placement of a key is the entry of that key.
    rcases get?_of_merge config base editions entries hmerge other own hown with
      ⟨entry', hmerged', hget'⟩
    rcases harranges.placed other entry' ((Dict.mem_pairs_iff entries other entry').mpr hget') with
      ⟨place, hplace', hat'⟩
    rw [hplaced, Except.ok.injEq] at hplace'
    rw [← hplace', hat, Option.some.injEq] at hat'
    rw [hat']
    exact fits_of_mergeKey config editions other own entry' hmerged'

/-- Two tokens of one language have one variable, in another order than the tokens
    of the default language. Both texts show the values of both fields. -/
theorem compile_arguments_inbox : ∃ base editions c l entry,
    compile .default base editions = .ok c ∧ l ∈ c.located ∧
    l.group.messages.get? "count" = some entry ∧
    entry.shape.fields = [⟨"count", "Int"⟩, ⟨"user", "Long"⟩] ∧
    (entry.arms .default).map (fun arm =>
      arm.phrase.render (fun v => if v = "count" then "3" else "7")) =
        ["3 für <@7>", "<@7>: 3 (7)"] ∧
    ∀ arm ∈ entry.arms .default,
      (∀ v, v ∈ arm.phrase.asked ↔ v ∈ entry.shape.fields.map Field.name) ∧
      arm.phrase.DependsOn (entry.shape.fields.map Field.name) := by
  let base : Dict String := .ofList [("inbox.count", "{count:Int} für {user:Mention}")]
  let editions : List Edition :=
    [⟨"en", .ofList [("inbox.count", "{user:Mention}: {count:Int} ({user:Long})")]⟩]
  have hshown : (compile .default base editions).toOption.map (fun c => c.located.map (fun l =>
      (l.group.messages.get? "count").map (fun entry => (entry.shape.fields,
        (entry.arms .default).map (fun arm =>
          arm.phrase.render (fun v => if v = "count" then "3" else "7")))))) =
      some [some ([⟨"count", "Int"⟩, ⟨"user", "Long"⟩], ["3 für <@7>", "<@7>: 3 (7)"])] := by
    decide +kernel
  -- Fields and texts are computed; that the texts depend on the fields, the theorem says.
  cases h : compile .default base editions with
  | error defect =>
      rw [h] at hshown
      cases hshown
  | ok c =>
      rw [h] at hshown
      rcases List.map_eq_singleton_iff.mp (Option.some.inj hshown) with ⟨l, hl, hseen⟩
      rcases Option.map_eq_some_iff.mp hseen with ⟨entry, hentry, hseen⟩
      rcases Prod.mk.inj hseen with ⟨hfields, hrendered⟩
      have hmem : l ∈ c.located := by
        rw [hl]
        exact List.mem_singleton_self l
      exact ⟨base, editions, c, l, entry, h, hmem, hentry, hfields, hrendered,
        (compile_arguments .default base editions c h l hmem "count" entry hentry).2.2.1⟩

end Phrasebook
