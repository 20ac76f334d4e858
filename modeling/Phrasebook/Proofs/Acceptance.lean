import Phrasebook.Proofs.Merge

/-!
# What Merging Accepts, and What It Reports

Merging goes through the editions once for foreign keys, and then through the keys
of the default messages, for each of which it reads the default text and the texts
of the editions. It stops at the first failure. Many failures may be there at once,
in different keys and different locales, so what is reported depends on the order
of the walk. This module states that order without the walk.

There are two levels. `KeyDefect` is what is wrong with the texts of one key: the
default text, or the first edition whose text disagrees with it. `FirstDefect` is
what is wrong with all messages: a foreign key, wherever it stands, or else the
defect of the least key that has one. `merge_outcome` says that merging reports
exactly that, and that there is nothing to report exactly if the messages are
`Consistent`. A text that equals the default one needs no case of its own, since it
is read and compared before it is left out.

## Main definitions

* `Agrees`: An edition has no text for a key, or one with the expected arguments.
* `Consistent`: The messages of all locales fit together.
* `EditionDefect`: What is wrong with the text of an edition.
* `KeyDefect`: What is wrong with the texts of a key.
* `FirstDefect`: What is wrong with the messages, by the order of reporting.

## Theorems

* `exists_addEdition_iff`, `addEdition_eq_error_iff`: One edition is added, or its
  defect is reported.
* `exists_foldlM_addEdition_iff`: All editions are added exactly if all agree.
* `mergeKey_eq_error_iff`: The defect of a key is reported.
* `exists_mergeKey_iff`: A key is merged exactly if its texts agree.
* `foreignKey?_eq_none_iff`, `foreignKey?_eq_some_iff`: Foreign keys, and the first.
* `merge_outcome`: Consistent messages are merged, and otherwise the first defect
  is reported.
-/

namespace Phrasebook

/-- An edition has no text for a key, or one that takes the expected arguments. -/
def Agrees (types : Dict CustomType) (key : String) (expected : Signature) (edition : Edition) :
    Prop :=
  ∀ text, edition.messages.get? key = some text →
    ∃ reading, Reading.ofText types text = .ok reading ∧ reading.signature = expected

/-- No edition has a key that the default messages lack. -/
def NoForeignKeys (base : Dict String) (editions : List Edition) : Prop :=
  ∀ edition ∈ editions, ∀ key ∈ edition.messages.keys, key ∈ base.keys

/-- The messages of all locales fit together: no edition has a foreign key, every
    default text can be read, and so can every text of an edition, which takes the
    arguments of the default text for its key. -/
structure Consistent (types : Dict CustomType) (base : Dict String) (editions : List Edition) :
    Prop where
  known : NoForeignKeys base editions
  readable : ∀ key text, base.get? key = some text →
    ∃ reading, Reading.ofText types text = .ok reading
  agreeing : ∀ key text reading, base.get? key = some text →
    Reading.ofText types text = .ok reading →
    ∀ edition ∈ editions, Agrees types key reading.signature edition

/-- What is wrong with the text that an edition has for a key: it cannot be read,
    or it takes other arguments than expected. -/
inductive EditionDefect (types : Dict CustomType) (key : String) (expected : Signature)
    (edition : Edition) : Defect → Prop
  | unreadable (text : String) (defect : Defect) (htext : edition.messages.get? key = some text)
      (hdefect : Reading.ofText types text = .error defect) :
      EditionDefect types key expected edition defect
  | arguments (text : String) (reading : Reading)
      (htext : edition.messages.get? key = some text)
      (hreading : Reading.ofText types text = .ok reading)
      (hdiffer : reading.signature ≠ expected) :
      EditionDefect types key expected edition
        (.signatures key edition.locale expected reading.signature)

/-- What is wrong with the texts of a key: the default text cannot be read, or it
    can and the text of an edition is wrong while those of all editions in front of
    it agree. -/
inductive KeyDefect (types : Dict CustomType) (editions : List Edition) (key text : String) :
    Defect → Prop
  | default (defect : Defect) (hdefect : Reading.ofText types text = .error defect) :
      KeyDefect types editions key text defect
  | edition (base : Reading) (front back : List Edition) (edition : Edition) (defect : Defect)
      (hbase : Reading.ofText types text = .ok base)
      (heditions : editions = front ++ edition :: back)
      (hfront : ∀ other ∈ front, Agrees types key base.signature other)
      (hdefect : EditionDefect types key base.signature edition defect) :
      KeyDefect types editions key text defect

/-- What is wrong with the messages of all locales. A foreign key comes before
    everything else: it is the least one of the first edition that has any. Without
    foreign keys it is what is wrong with the least key with which anything is. -/
inductive FirstDefect (types : Dict CustomType) (base : Dict String) (editions : List Edition) :
    Defect → Prop
  | foreign (front back : List Edition) (edition : Edition) (key : String)
      (heditions : editions = front ++ edition :: back) (hfront : NoForeignKeys base front)
      (hkey : key ∈ edition.messages.keys) (hforeign : key ∉ base.keys)
      (hleast : ∀ other ∈ edition.messages.keys, other ∉ base.keys → key ≤ other) :
      FirstDefect types base editions (.foreignKey edition.locale key)
  | key (key text : String) (defect : Defect) (hknown : NoForeignKeys base editions)
      (htext : base.get? key = some text) (hdefect : KeyDefect types editions key text defect)
      (hleast : ∀ smaller other, smaller < key → base.get? smaller = some other →
        ∀ cause, ¬KeyDefect types editions smaller other cause) :
      FirstDefect types base editions defect

section Editions

variable (types : Dict CustomType) (key : String) (base : Reading)

/-- An edition is refused for the defect of its text. -/
theorem addEdition_eq_error_iff (phrases : Dict Phrase) (edition : Edition) (defect : Defect) :
    addEdition types key base phrases edition = .error defect ↔
      EditionDefect types key base.signature edition defect := by
  rw [addEdition]
  cases htext : edition.messages.get? key with
  | none =>
      constructor
      · intro h
        cases h
      · -- A defect is one of a text, and there is none.
        intro h
        cases h with
        | unreadable text _ hsome _ =>
            rw [htext] at hsome
            cases hsome
        | arguments text reading hsome _ _ =>
            rw [htext] at hsome
            cases hsome
  | some text =>
      simp only [Fallible.bind_eq_error_iff]
      constructor
      · rintro (hread | ⟨reading, hread, h⟩)
        · exact .unreadable text defect htext hread
        · by_cases hsignature : reading.signature = base.signature
          · -- With the expected arguments the edition is added either way.
            rw [if_neg (not_not_intro hsignature), ← apply_ite Except.ok] at h
            cases h
          · rw [if_pos hsignature] at h
            cases h
            exact .arguments text reading htext hread hsignature
      · intro h
        cases h with
        | unreadable text' _ hsome hread =>
            rw [htext] at hsome
            cases hsome
            exact Or.inl hread
        | arguments text' reading hsome hread hdiffer =>
            rw [htext] at hsome
            cases hsome
            exact Or.inr ⟨reading, hread, if_pos hdiffer⟩

/-- An edition is added exactly if it agrees. -/
theorem exists_addEdition_iff (phrases : Dict Phrase) (edition : Edition) :
    (∃ phrases', addEdition types key base phrases edition = .ok phrases') ↔
      Agrees types key base.signature edition := by
  constructor
  · rintro ⟨phrases', h⟩ text htext
    rcases (addEdition_eq_ok_iff _ _ _ _ _ _).mp h with
      ⟨hnone, -⟩ | ⟨text', reading, hsome, hread, hsignature, -⟩
    · rw [htext] at hnone
      cases hnone
    · rw [htext] at hsome
      cases hsome
      exact ⟨reading, hread, hsignature⟩
  · intro hagrees
    rw [← Fallible.ne_error_iff]
    intro defect h
    -- Each defect contradicts what the edition agrees on.
    cases (addEdition_eq_error_iff types key base phrases edition defect).mp h with
    | unreadable text _ htext hread =>
        rcases hagrees text htext with ⟨reading, hreading, -⟩
        rw [hreading] at hread
        cases hread
    | arguments text reading htext hread hdiffer =>
        rcases hagrees text htext with ⟨reading', hreading, hsignature⟩
        rw [hreading] at hread
        cases hread
        exact hdiffer hsignature

/-- Editions are added exactly if all of them agree. -/
theorem exists_foldlM_addEdition_iff (editions : List Edition) (phrases : Dict Phrase) :
    (∃ others, editions.foldlM (addEdition types key base) phrases = .ok others) ↔
      ∀ edition ∈ editions, Agrees types key base.signature edition := by
  induction editions generalizing phrases with
  | nil => exact ⟨fun _ edition h => absurd h List.not_mem_nil, fun _ => ⟨phrases, rfl⟩⟩
  | cons edition rest ih =>
      -- Whether an edition is added does not depend on the phrases that are there.
      rw [List.forall_mem_cons, ← exists_addEdition_iff types key base phrases edition]
      constructor
      · rintro ⟨others, h⟩
        rcases (Fallible.foldlM_cons_eq_ok_iff _ _ _ _ _).mp h with ⟨next, hnext, hrest⟩
        exact ⟨⟨next, hnext⟩, (ih next).mp ⟨others, hrest⟩⟩
      · rintro ⟨⟨next, hnext⟩, hagree⟩
        rcases (ih next).mpr hagree with ⟨others, hothers⟩
        exact ⟨others, (Fallible.foldlM_cons_eq_ok_iff _ _ _ _ _).mpr ⟨next, hnext, hothers⟩⟩

end Editions

section Keys

variable (config : Config) (base : Dict String) (editions : List Edition)

/-- A key is refused for what is wrong with its texts. -/
theorem mergeKey_eq_error_iff (key text : String) (defect : Defect) :
    mergeKey config editions key text = .error defect ↔
      KeyDefect config.customTypes editions key text defect := by
  rw [mergeKey, Fallible.bind_eq_error_iff]
  constructor
  · rintro (hread | ⟨reading, hread, h⟩)
    · exact .default defect hread
    -- The first edition that fails has editions in front of it that do not.
    · rcases (Fallible.bind_eq_error_iff _ _ _).mp h with hfold | ⟨others, -, h⟩
      · rcases (Fallible.foldlM_eq_error_iff _ _ _ _).mp hfold with
          ⟨front, edition, back, phrases, heditions, hfront, hedition⟩
        exact .edition reading front back edition defect hread heditions
          ((exists_foldlM_addEdition_iff _ _ _ front .empty).mp ⟨phrases, hfront⟩)
          ((addEdition_eq_error_iff _ _ _ phrases edition defect).mp hedition)
      · cases h
  · intro h
    cases h with
    | default _ hread => exact Or.inl hread
    | edition reading front back edition _ hread heditions hfront hedition =>
        refine Or.inr ⟨reading, hread, (Fallible.bind_eq_error_iff _ _ _).mpr (Or.inl ?_)⟩
        rcases (exists_foldlM_addEdition_iff _ _ _ front .empty).mpr hfront with ⟨phrases, hphrases⟩
        exact (Fallible.foldlM_eq_error_iff _ _ _ _).mpr ⟨front, edition, back, phrases, heditions,
          hphrases, (addEdition_eq_error_iff _ _ _ phrases edition defect).mpr hedition⟩

/-- A key is merged exactly if its default text can be read and all editions
    agree with it. -/
theorem exists_mergeKey_iff (key text : String) :
    (∃ entry, mergeKey config editions key text = .ok entry) ↔
      ∃ reading, Reading.ofText config.customTypes text = .ok reading ∧
        ∀ edition ∈ editions, Agrees config.customTypes key reading.signature edition := by
  constructor
  · rintro ⟨entry, h⟩
    rcases (mergeKey_eq_ok_iff _ _ _ _ _).mp h with ⟨reading, others, hread, hothers, -⟩
    exact ⟨reading, hread, (exists_foldlM_addEdition_iff _ _ _ _ _).mp ⟨others, hothers⟩⟩
  · rintro ⟨reading, hread, hagree⟩
    rcases (exists_foldlM_addEdition_iff _ _ _ _ .empty).mpr hagree with ⟨others, hothers⟩
    exact ⟨_, (mergeKey_eq_ok_iff _ _ _ _ _).mpr ⟨reading, others, hread, hothers, rfl⟩⟩

/-- An edition has no foreign key exactly if all of its keys are default keys. -/
theorem Edition.foreignKey?_eq_none_iff (edition : Edition) :
    edition.foreignKey? base = none ↔ ∀ key ∈ edition.messages.keys, key ∈ base.keys := by
  rw [Edition.foreignKey?, List.find?_eq_none]
  refine forall_congr' (fun key => imp_congr_right (fun _ => ?_))
  rw [← Dict.contains_iff, Bool.not_eq_true', Bool.not_eq_false]

/-- The foreign key of an edition is the least of its keys that the default
    messages lack. -/
theorem Edition.foreignKey?_eq_some_iff (edition : Edition) (key : String) :
    edition.foreignKey? base = some key ↔ key ∈ edition.messages.keys ∧ key ∉ base.keys ∧
      ∀ other ∈ edition.messages.keys, other ∉ base.keys → key ≤ other := by
  have hforeign : ∀ k, (!base.contains k) = true ↔ k ∉ base.keys := by
    intro k
    rw [← Dict.contains_iff, Bool.not_eq_true', Bool.not_eq_true]
  have hascend := Dict.ordered_iff_keys.mp edition.messages.ordered
  rw [Edition.foreignKey?, List.find?_eq_some_iff_append]
  simp only [hforeign]
  constructor
  · rintro ⟨hkey, front, back, hkeys, hfront⟩
    have hlist : edition.messages.keys = front ++ key :: back := hkeys
    refine ⟨by rw [hlist]; exact List.mem_append_right _ List.mem_cons_self, hkey, ?_⟩
    intro other hother hnot
    rw [hlist, List.mem_append] at hother
    -- In front of the key no key is foreign, and behind it all are greater.
    rcases hother with hin | hin
    · have hknown := hfront other hin
      rw [Bool.not_not, Dict.contains_iff] at hknown
      exact absurd hknown hnot
    · rcases List.mem_cons.mp hin with rfl | hin
      · exact String.le_refl other
      · have hpair : (front ++ key :: back).Pairwise (· < ·) := hlist ▸ hascend
        have hlt := (List.pairwise_cons.mp (List.pairwise_append.mp hpair).2.1).1 other hin
        exact Std.le_of_lt hlt
  · rintro ⟨hmem, hkey, hleast⟩
    rcases List.append_of_mem hmem with ⟨front, back, hkeys⟩
    refine ⟨hkey, front, back, hkeys, ?_⟩
    intro other hother
    have hpair : (front ++ key :: back).Pairwise (· < ·) := hkeys ▸ hascend
    have hlt := (List.pairwise_append.mp hpair).2.2 other hother key List.mem_cons_self
    rw [Bool.not_not, Dict.contains_iff]
    by_contra hnot
    have hin : other ∈ edition.messages.keys := by
      rw [hkeys]
      exact List.mem_append_left _ hother
    exact hleast other hin hnot hlt

/-- No foreign key is found exactly if there is none. -/
theorem foreignKey?_eq_none_iff :
    foreignKey? base editions = none ↔ NoForeignKeys base editions := by
  rw [foreignKey?, List.findSome?_eq_none_iff]
  refine forall_congr' (fun edition => imp_congr_right (fun _ => ?_))
  rw [Option.map_eq_none_iff, Edition.foreignKey?_eq_none_iff]

/-- The defect that is found is the foreign key of the first edition with one. -/
theorem foreignKey?_eq_some_iff (defect : Defect) :
    foreignKey? base editions = some defect ↔ ∃ front edition back key,
      editions = front ++ edition :: back ∧ NoForeignKeys base front ∧
      edition.foreignKey? base = some key ∧ defect = .foreignKey edition.locale key := by
  rw [foreignKey?, List.findSome?_eq_some_iff]
  constructor
  · rintro ⟨front, edition, back, heditions, hedition, hfront⟩
    rcases Option.map_eq_some_iff.mp hedition with ⟨key, hkey, rfl⟩
    refine ⟨front, edition, back, key, heditions, ?_, hkey, rfl⟩
    -- In front of the first edition with a foreign key there is none with one.
    intro other hother
    have hnone := hfront other hother
    rw [Option.map_eq_none_iff] at hnone
    exact (Edition.foreignKey?_eq_none_iff base other).mp hnone
  · rintro ⟨front, edition, back, key, heditions, hfront, hkey, rfl⟩
    refine ⟨front, edition, back, heditions, by rw [hkey]; rfl, ?_⟩
    intro other hother
    rw [(Edition.foreignKey?_eq_none_iff base other).mpr (hfront other hother)]
    rfl

/-- Without foreign keys messages are consistent exactly if each key can be
    merged. -/
theorem consistent_iff_of_known (hknown : NoForeignKeys base editions) :
    Consistent config.customTypes base editions ↔
      ∀ key text, base.get? key = some text →
        ∃ entry, mergeKey config editions key text = .ok entry := by
  constructor
  · intro h key text htext
    rcases h.readable key text htext with ⟨reading, hread⟩
    exact (exists_mergeKey_iff config editions key text).mpr
      ⟨reading, hread, h.agreeing key text reading htext hread⟩
  · intro h
    have hmerged := fun key text htext =>
      (exists_mergeKey_iff config editions key text).mp (h key text htext)
    refine ⟨hknown, fun key text htext => ?_, fun key text reading htext hread => ?_⟩
    · rcases hmerged key text htext with ⟨reading, hread, -⟩
      exact ⟨reading, hread⟩
    -- A text has one reading, so the editions agree with this one.
    · rcases hmerged key text htext with ⟨reading', hread', hagree⟩
      rw [hread] at hread'
      cases hread'
      exact hagree

/-- Merging reports the first defect. -/
theorem merge_eq_error_iff (defect : Defect) :
    merge config base editions = .error defect ↔
      FirstDefect config.customTypes base editions defect := by
  rw [merge]
  cases hforeign : foreignKey? base editions with
  | some found =>
      rcases (foreignKey?_eq_some_iff base editions found).mp hforeign with
        ⟨front, edition, back, key, heditions, hfront, hkey, rfl⟩
      rcases (Edition.foreignKey?_eq_some_iff base edition key).mp hkey with
        ⟨hmem, hnot, hleast⟩
      constructor
      · intro h
        cases h
        exact .foreign front back edition key heditions hfront hmem hnot hleast
      · intro h
        -- Of two foreign keys that come first, each is the other.
        cases h with
        | foreign front' back' edition' key' heditions' hfront' hmem' hnot' hleast' =>
            have hkey' : edition'.foreignKey? base = some key' :=
              (Edition.foreignKey?_eq_some_iff base edition' key').mpr ⟨hmem', hnot', hleast'⟩
            have hfound := (foreignKey?_eq_some_iff base editions _).mpr
              ⟨front', edition', back', key', heditions', hfront', hkey', rfl⟩
            rw [hforeign] at hfound
            rw [Option.some.inj hfound]
        | key _ _ _ hknown _ _ _ =>
            have hedition : edition ∈ editions := by
              rw [heditions]
              exact List.mem_append_right _ List.mem_cons_self
            exact absurd (hknown edition hedition key hmem) hnot
  | none =>
      have hknown := (foreignKey?_eq_none_iff base editions).mp hforeign
      -- A key has no defect exactly if it can be merged.
      have hmerged : ∀ key text, (∃ entry, mergeKey config editions key text = .ok entry) ↔
          ∀ cause, ¬KeyDefect config.customTypes editions key text cause := by
        intro key text
        rw [← Fallible.ne_error_iff]
        exact forall_congr' (fun cause =>
          not_congr (mergeKey_eq_error_iff config editions key text cause))
      simp only
      rw [Dict.mapM_eq_error_iff]
      constructor
      · rintro ⟨key, text, htext, hdefect, hleast⟩
        refine .key key text defect hknown htext
          ((mergeKey_eq_error_iff config editions key text defect).mp hdefect) ?_
        intro smaller other hlt hother
        exact (hmerged smaller other).mp (hleast smaller other hlt hother)
      · intro h
        cases h with
        | foreign front back edition key heditions _ hmem hnot _ =>
            have hedition : edition ∈ editions := by
              rw [heditions]
              exact List.mem_append_right _ List.mem_cons_self
            exact absurd (hknown edition hedition key hmem) hnot
        | key key text _ _ htext hdefect hleast =>
            refine ⟨key, text, htext,
              (mergeKey_eq_error_iff config editions key text defect).mpr hdefect, ?_⟩
            intro smaller other hlt hother
            exact (hmerged smaller other).mpr (hleast smaller other hlt hother)

end Keys

/-- Merging succeeds exactly for consistent messages, with an entry for each default
    key and no others. Otherwise it reports the first defect: a foreign key if there
    is any, else the defect of the least key that has one. -/
theorem merge_outcome (config : Config) (base : Dict String) (editions : List Edition) :
    ((∃ entries, merge config base editions = .ok entries) ↔
      Consistent config.customTypes base editions) ∧
    (∀ entries, merge config base editions = .ok entries → entries.keys = base.keys) ∧
    ∀ defect, merge config base editions = .error defect ↔
      FirstDefect config.customTypes base editions defect := by
  refine ⟨?_, ?_, merge_eq_error_iff config base editions⟩
  · constructor
    · rintro ⟨entries, h⟩
      have hmap := mapM_of_merge config base editions entries h
      -- Foreign keys are looked for first, so merging has found none.
      have hknown : NoForeignKeys base editions := by
        rw [← foreignKey?_eq_none_iff]
        rw [merge] at h
        split at h
        · cases h
        · assumption
      refine (consistent_iff_of_known config base editions hknown).mpr ?_
      exact (Dict.exists_mapM_iff _ base).mp ⟨entries, hmap⟩
    · intro h
      rw [merge, (foreignKey?_eq_none_iff base editions).mpr h.known]
      exact (Dict.exists_mapM_iff _ base).mpr
        ((consistent_iff_of_known config base editions h.known).mp h)
  · intro entries h
    exact Dict.keys_of_mapM _ base entries (mapM_of_merge config base editions entries h)

end Phrasebook
