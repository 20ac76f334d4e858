import Phrasebook.Proofs.Acceptance
import Phrasebook.Proofs.Clashes
import Phrasebook.Proofs.Flatten
import Phrasebook.Proofs.KeySpan
import Phrasebook.Proofs.Stages
import Phrasebook.Proofs.TextDefects

/-!
# The Document to Blame

A run that fails in compiling tells where its messages are wrong, but a defect knows no
document. It names a key and sometimes a locale, and the place is looked up afterwards,
in the document of that locale or in the default one. Nothing keeps that look-up from
going astray: there may be no such document, its messages may lack the key, or the key
may not be one at all but a package or a path of groups, which are texts like it.

That it does not go astray is due to where defects come from. Each of the three passes
of compiling has the key of a message at hand when it fails, and of a document that is
known. The search for foreign keys reports a key of an edition together with its
locale. Merging goes through the default keys, and reports one with the locale of an
edition only for a text that this edition has for it. Arranging goes through the merged
entries, whose keys are the default ones, and reports a key as it is and not a place
made from it. `Sources.Blames` says of a defect which document and which key that is.
All other defects are about a text or about a name that is taken, and for these no place
is told (`Defect.Keyless`).

A locale stands for one document only, since the languages of a valid configuration
are different and the default one is not among the others.

## Main definitions

* `Defect.Keyless`: A defect that names no key.
* `Sources.document?`: The document in which a defect is looked for.
* `Sources.Blames`: A defect is due to a key of a document.

## Theorems

* `Sources.locate?_of_context`: A defect is looked for in that document.
* `Sources.blames_of_merge`, `Sources.blames_of_ofEntries`: What merging and arranging
  report.
* `Sources.blames_of_compile`: Every defect names no key or is due to one.
* `Sources.Blames.context_eq`, `Sources.Blames.locate?_eq`: A defect is looked for in the
  document that it is due to.
* `Sources.StoredIn.locales_eq`, `Sources.StoredIn.storedIn_locale`,
  `Sources.StoredIn.wellFormed`: What is known of documents that are loaded.
* `loadSources_blames`: A place is told in the document that is to blame.
-/

namespace Phrasebook

/-- A defect that names no key: that of a text, or a name that is taken. -/
inductive Defect.Keyless : Defect → Prop
  | unknownType (identifier variableName : String) : Keyless (.unknownType identifier variableName)
  | placeholders (text : String) (cause : Misplacement) : Keyless (.placeholders text cause)
  | nameTaken (package name : String) : Keyless (.nameTaken package name)

theorem Defect.Keyless.context_eq {defect : Defect} (h : defect.Keyless) : defect.context = none := by
  cases h <;> rfl

/-- What is wrong with a text is told without a key. -/
theorem Reading.keyless_of_ofText (types : Dict CustomType) (text : String) (defect : Defect)
    (h : ofText types text = .error defect) : defect.Keyless := by
  cases defect_of_ofText types text defect h with
  | wrapped => exact .placeholders _ _
  | unknown => exact .unknownType _ _
  | repeated => exact .placeholders _ _
  | conflicting => exact .placeholders _ _

namespace Sources

/-- The document in which a defect is looked for: that of the locale that it names, or
    the default one. -/
def document? (s : Sources) : Option String → Option Document
  | some locale => s.others.find? (fun d => d.locale = locale)
  | none => some s.base

/-- A defect is looked for by its key, in the document of the locale that it names. -/
theorem locate?_of_context (s : Sources) (defect : Defect) (locale? : Option String) (key : String)
    (h : defect.context = some (locale?, key)) :
    s.locate? defect = (s.document? locale?).bind (fun d => d.locate? key) := by
  rw [locate?, h]
  cases locale? <;> rfl

/-- A defect is due to a key of a document: the default messages lack the key; or the
    text for it takes other arguments than the default text; or one of its marked
    segments is the suffix alone. -/
inductive Blames (config : Config) (s : Sources) : Defect → Document → String → Prop
  | foreign (document : Document) (key : String) (hdocument : document ∈ s.others)
      (hkey : key ∈ document.messages.keys) (hforeign : key ∉ s.base.messages.keys) :
      Blames config s (.foreignKey document.locale key) document key
  | arguments (document : Document) (key text own : String) (expected found : Reading)
      (hdocument : document ∈ s.others) (htext : s.base.messages.get? key = some text)
      (hown : document.messages.get? key = some own)
      (hexpected : Reading.ofText config.customTypes text = .ok expected)
      (hfound : Reading.ofText config.customTypes own = .ok found)
      (hdiffer : found.signature ≠ expected.signature) :
      Blames config s (.signatures key document.locale expected.signature found.signature)
        document key
  | bare (key suffix : String) (hkey : key ∈ s.base.messages.keys)
      (hsuffix : config.groupSuffix? = some suffix)
      (hmarked : suffix ∈ Placement.markedSegments suffix key) :
      Blames config s (.malformed key (.bareSuffix suffix)) s.base key

section Compiling

variable (config : Config) (s : Sources) (defect : Defect)

/-- What merging reports is about a text, or due to a key of a document other than the
    default. -/
theorem blames_of_merge (h : merge config s.base.messages s.editions = .error defect) :
    defect.Keyless ∨ ∃ document key, s.Blames config defect document key := by
  cases (merge_eq_error_iff config s.base.messages s.editions defect).mp h with
  | foreign front back edition key heditions _ hkey hforeign _ =>
      -- The edition is the messages of one of the other documents.
      have hedition : edition ∈ s.editions := heditions ▸ List.mem_append_right _ List.mem_cons_self
      rcases List.mem_map.mp hedition with ⟨document, hdocument, rfl⟩
      exact Or.inr ⟨document, key, .foreign document key hdocument hkey hforeign⟩
  | key key text _ _ htext hdefect _ =>
      -- A text of the default document can only be unreadable, which names no key.
      cases hdefect with
      | default _ hread => exact Or.inl (Reading.keyless_of_ofText _ _ _ hread)
      | edition expected front back edition _ hexpected heditions _ hedition =>
          have hmem : edition ∈ s.editions := heditions ▸ List.mem_append_right _ List.mem_cons_self
          rcases List.mem_map.mp hmem with ⟨document, hdocument, rfl⟩
          cases hedition with
          | unreadable _ _ _ hread => exact Or.inl (Reading.keyless_of_ofText _ _ _ hread)
          | arguments own found hown hfound hdiffer =>
              exact Or.inr ⟨document, key, .arguments document key text own expected found hdocument
                htext hown hexpected hfound hdiffer⟩

/-- What arranging reports is a name that is taken, or due to a default key. -/
theorem blames_of_ofEntries (hkeys : ∀ key ∈ s.base.messages.keys, Key.WellFormed key)
    (entries : Dict Entry) (hentries : entries.keys = s.base.messages.keys)
    (h : Catalogue.ofEntries config entries = .error defect) :
    defect.Keyless ∨ ∃ document key, s.Blames config defect document key := by
  rw [← hentries] at hkeys
  rcases Catalogue.defect_of_ofEntries config entries hkeys defect h with
    ⟨key, hkey, suffix, hsuffix, hmarked, rfl⟩ | ⟨_, _, _, _, _, _, _, _, _, rfl⟩
  · exact Or.inr ⟨s.base, key, .bare key suffix (hentries ▸ hkey) hsuffix hmarked⟩
  · exact Or.inl (.nameTaken _ _)

/-- A defect of compiling names no key, or is due to a key of a document. -/
theorem blames_of_compile (hkeys : ∀ key ∈ s.base.messages.keys, Key.WellFormed key)
    (h : Phrasebook.compile config s.base.messages s.editions = .error defect) :
    defect.Keyless ∨ ∃ document key, s.Blames config defect document key := by
  rcases (Fallible.bind_eq_error_iff _ _ _).mp h with hmerge | ⟨entries, hentries, h⟩
  · exact blames_of_merge config s defect hmerge
  · have hsame := Dict.keys_of_mapM _ _ entries (mapM_of_merge config _ _ entries hentries)
    exact blames_of_ofEntries config s defect hkeys entries hsame h

end Compiling

section Places

variable {config : Config} {s : Sources} {defect : Defect} {document : Document} {key : String}

/-- A document other than the default is the one that is looked in for its locale. -/
theorem document?_locale (hlocales : ((s.base :: s.others).map Document.locale).Nodup)
    (hdocument : document ∈ s.others) : s.document? (some document.locale) = some document := by
  rw [document?]
  cases hfind : s.others.find? (fun d => d.locale = document.locale) with
  | none =>
      rw [List.find?_eq_none] at hfind
      exact absurd (decide_eq_true rfl) (hfind document hdocument)
  | some other =>
      -- The first document of that locale is the only one.
      have hsame := List.find?_some hfind
      rw [decide_eq_true_eq] at hsame
      rw [List.map_cons, List.nodup_cons] at hlocales
      rw [List.inj_on_of_nodup_map hlocales.2 (List.mem_of_find?_eq_some hfind) hdocument hsame]

/-- A defect is due to a key of the messages of its document. -/
theorem Blames.mem_keys (h : s.Blames config defect document key) :
    key ∈ document.messages.keys := by
  cases h with
  | foreign document key _ hkey _ => exact hkey
  | arguments document key text own _ _ _ _ hown _ _ _ =>
      exact (Dict.mem_keys_iff _ _).mpr ⟨own, hown⟩
  | bare key suffix hkey _ _ => exact hkey

/-- A defect names the key that it is due to, and the document that it is due to is the
    one in which it is looked for, if no other has the same locale. -/
theorem Blames.context_eq (hkeys : ∀ key ∈ s.base.messages.keys, Key.WellFormed key)
    (hlocales : ((s.base :: s.others).map Document.locale).Nodup)
    (h : s.Blames config defect document key) : ∃ locale?,
      defect.context = some (locale?, key) ∧ s.document? locale? = some document ∧
      document ∈ s.base :: s.others ∧ document.locale = locale?.getD s.base.locale := by
  cases h with
  | foreign document key hdocument _ _ =>
      exact ⟨some document.locale, rfl, document?_locale hlocales hdocument,
        List.mem_cons_of_mem _ hdocument, rfl⟩
  | arguments document key _ _ _ _ hdocument _ _ _ _ _ =>
      exact ⟨some document.locale, rfl, document?_locale hlocales hdocument,
        List.mem_cons_of_mem _ hdocument, rfl⟩
  | bare key suffix hkey _ _ =>
      -- The empty text is no key, so the defect has a place.
      have hempty : ¬ key.isEmpty = true := by
        rw [String.isEmpty_iff]
        rintro rfl
        exact absurd (hkeys "" hkey) (by decide)
      exact ⟨none, if_neg hempty, rfl, List.mem_cons_self, rfl⟩

/-- The place of a defect is where the document that it is due to has the key. -/
theorem Blames.locate?_eq (hkeys : ∀ key ∈ s.base.messages.keys, Key.WellFormed key)
    (hlocales : ((s.base :: s.others).map Document.locale).Nodup)
    (h : s.Blames config defect document key) : s.locate? defect = document.locate? key := by
  rcases h.context_eq hkeys hlocales with ⟨locale?, hcontext, hdocument, -, -⟩
  rw [locate?_of_context s defect locale? key hcontext, hdocument, Option.bind_some]

end Places

end Sources

/-- A document has the locale for which it is read. -/
theorem Document.locale_of_parse (locale path text : String) (d : Document)
    (h : parse locale path text = .ok d) : d.locale = locale := by
  unfold parse at h
  split at h
  · cases h
  · dsimp only at h
    split at h
    · cases h
      rfl
    · cases h

open FileTree

namespace Sources.StoredIn

variable {tree : FileTree} {input : String} {config : Config} {s : Sources}

/-- Documents are loaded in the order of their languages, the default one first. -/
theorem locales_eq (h : s.StoredIn tree input config) :
    (s.base :: s.others).map Document.locale =
      config.defaultLanguage :: config.secondaryLanguages := by
  -- Each document has the locale of the file it was parsed from.
  have hlocales : List.Forall₂ (fun locale d => locale = Document.locale d)
      (config.defaultLanguage :: config.secondaryLanguages) (s.base :: s.others) := by
    refine List.Forall₂.imp ?_ (.cons h.base h.others)
    rintro locale d ⟨text, -, hparse⟩
    exact (Document.locale_of_parse _ _ _ _ hparse).symm
  rw [← List.forall₂_map_right_iff (f := Document.locale), List.forall₂_eq_eq_eq] at hlocales
  exact hlocales.symm

/-- Each document that is loaded is stored under its locale. -/
theorem storedIn_locale (h : s.StoredIn tree input config) (document : Document)
    (hdocument : document ∈ s.base :: s.others) :
    Document.StoredIn tree input document.locale document := by
  have hall : List.Forall₂ (Document.StoredIn tree input)
      (config.defaultLanguage :: config.secondaryLanguages) (s.base :: s.others) :=
    .cons h.base h.others
  rw [← h.locales_eq, List.forall₂_map_left_iff, List.forall₂_same] at hall
  exact hall document hdocument

/-- The keys of documents that are loaded are well-formed. -/
theorem wellFormed (h : s.StoredIn tree input config) (key : String)
    (hkey : key ∈ s.base.messages.keys) : Key.WellFormed key := by
  rcases h.base with ⟨text, -, hparse⟩
  rcases Document.exists_members_of_parse _ _ _ _ hparse with ⟨members, -, hflat, -, -⟩
  exact Locale.wellFormed_of_flatten _ _ hflat key hkey

end Sources.StoredIn

/-- Documents that are loaded for a valid configuration have different locales. If they
    cannot be compiled, the defect names a key unless it is about a text or a name that is
    taken, and then it is due to that key in one of the documents: the one of the locale
    that the defect names, or the default one. The key is one of its messages, and what is
    told as the place is where this document has the key. No defect is about a repeated
    key or the empty one. -/
theorem loadSources_blames (tree : FileTree) (input : String) (config : Config) (s : Sources)
    (hvalid : config.Valid) (hload : (perform (loadSources input config) tree).1 = .ok s)
    (defect : Defect)
    (h : Phrasebook.compile config s.base.messages s.editions = .error defect) :
    ((s.base :: s.others).map Document.locale).Nodup ∧
    (defect.context = none ↔ defect.Keyless) ∧
    (∀ locale? key, defect.context = some (locale?, key) → ∃ document,
      s.document? locale? = some document ∧
      Document.StoredIn tree input (locale?.getD config.defaultLanguage) document ∧
      key ∈ document.messages.keys ∧ s.Blames config defect document key ∧
      s.compile config = .error (.compile defect (document.locate? key))) ∧
    (∀ key, defect ≠ .repeatedKey key) ∧ ∀ cause, defect ≠ .malformed "" cause := by
  rcases perform_loadSources tree input config with ⟨result, hresult, hstored⟩
  rw [hresult] at hload
  have hstored := hstored s hload
  have hlocales := hstored.locales_eq ▸ hvalid.nodup_default_cons config
  -- Every defect of a compile names no key, or blames one of a document.
  have hcause := Sources.blames_of_compile config s defect hstored.wellFormed h
  refine ⟨hlocales, ⟨fun hnone => ?_, Defect.Keyless.context_eq⟩, ?_, ?_, ?_⟩
  · rcases hcause with hkeyless | ⟨document, key, hblames⟩
    · exact hkeyless
    · rcases hblames.context_eq hstored.wellFormed hlocales with ⟨locale?, hcontext, -⟩
      rw [hnone] at hcontext
      cases hcontext
  · intro locale? key hcontext
    rcases hcause with hkeyless | ⟨document, key', hblames⟩
    · rw [hkeyless.context_eq] at hcontext
      cases hcontext
    · rcases hblames.context_eq hstored.wellFormed hlocales with
        ⟨locale?', hcontext', hdocument, hmem, hlocale⟩
      -- The context is computed from the defect, so both name the same document and key.
      rw [hcontext, Option.some.injEq, Prod.mk.injEq] at hcontext'
      rcases hcontext' with ⟨rfl, rfl⟩
      have hbase : s.base.locale = config.defaultLanguage := (List.cons.inj hstored.locales_eq).1
      rw [hbase] at hlocale
      have hplace := hblames.locate?_eq hstored.wellFormed hlocales
      refine ⟨document, hdocument, hlocale ▸ hstored.storedIn_locale document hmem,
        hblames.mem_keys, hblames, ?_⟩
      rw [← hplace, Sources.compile, h]
  · rintro key rfl
    rcases hcause with hkeyless | ⟨document, key', hblames⟩
    · cases hkeyless
    · cases hblames
  · rintro cause rfl
    rcases hcause with hkeyless | ⟨document, key, hblames⟩
    · cases hkeyless
    · cases hblames with
      -- The empty key is no key of a loaded document.
      | bare _ suffix hkey _ _ => exact absurd (hstored.wellFormed "" hkey) (by decide)

/-- The text of one locale takes another argument than the default text, and the place
    told is in its document though the other one has the key too. -/
theorem loadSources_blames_arguments : ∃ tree s defect,
    Config.default.Valid ∧ (perform (loadSources "i18n" Config.default) tree).1 = .ok s ∧
    Phrasebook.compile Config.default s.base.messages s.editions = .error defect ∧
    defect.context = some (some "en", "n") ∧ "n" ∈ s.base.messages.keys ∧
    s.compile Config.default =
      .error (.compile defect (some ⟨"i18n/en.json", ⟨0, 1⟩, ⟨0, 4⟩⟩)) := by
  let tree : FileTree := directory [("i18n", directory [
    ("de.json", file "\x7b\"a\":\"x\",\"n\":\"\x7bv\x7d\"\x7d".toUTF8),
    ("en.json", file "\x7b\"n\":\"\x7bw\x7d\"\x7d".toUTF8)])]
  have hvalid : Config.default.Valid := by decide +kernel
  -- Whether the default messages have the key, where the other ones have it, and what the
  -- defect names.
  have hseen : ((perform (loadSources "i18n" Config.default) tree).1.toOption.map (fun s =>
      (decide ("n" ∈ s.base.messages.keys),
        (s.document? (some "en")).bind (fun d => d.locate? "n"),
        (((Phrasebook.compile Config.default s.base.messages s.editions).map
          (fun _ => none)).tryCatch (fun defect => .ok defect.context)).toOption.join))) =
      some (true, some ⟨"i18n/en.json", ⟨0, 1⟩, ⟨0, 4⟩⟩, some (some "en", "n")) := by
    decide +kernel
  cases hload : (perform (loadSources "i18n" Config.default) tree).1 with
  | error cause =>
      rw [hload] at hseen
      cases hseen
  | ok s =>
      rw [hload, Except.toOption, Option.map_some, Option.some.injEq, Prod.mk.injEq,
        Prod.mk.injEq, decide_eq_true_eq] at hseen
      rcases hseen with ⟨hkey, hplace, hcontext⟩
      cases hcompile : Phrasebook.compile Config.default s.base.messages s.editions with
      | ok catalogue =>
          rw [hcompile] at hcontext
          cases hcontext
      | error defect =>
          rw [hcompile] at hcontext
          rcases loadSources_blames tree "i18n" Config.default s hvalid hload defect hcompile with
            ⟨-, -, hblames, -⟩
          rcases hblames (some "en") "n" hcontext with ⟨document, hdocument, -, -, -, htold⟩
          rw [hdocument, Option.bind_some] at hplace
          rw [hplace] at htold
          exact ⟨tree, s, defect, hvalid, hload, hcompile, hcontext, hkey, htold⟩

end Phrasebook
