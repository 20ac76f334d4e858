import Phrasebook.Config.Printer
import Phrasebook.Config.Reader
import Phrasebook.Proofs.Dict
import Phrasebook.Proofs.Grammar

/-!
# Configurations in Their Texts

A configuration has many texts. Its fields may stand in any order, some of them and the
fields of custom types have an older name besides their own, and a field whose value is
that of the default configuration may be left out. `Config.Writes` says which texts
write a configuration; that there is no suffix is a value of its own there, written as
`null`, and not the same as a suffix left out.

All these texts are read as the configuration that they write (`parse_of_writes`). The
members of an object are gathered in a draft, and what makes that independent of their
order is that each field is set once, and setting one field leaves the others as they
are (`get_ofDraft_take`). The printed text is one of them (`writes_print`), so what is
printed is read back, whatever the configuration is and whether it is valid or not.

## Main definitions

* `CustomType.Field.names`, `Config.Field.names`: The names under which a field may
  stand.
* `CustomType.Writes`, `Config.Writes`: A text writes a custom type, or a configuration.
* `CustomType.Draft.take`, `Config.Draft.take`: A draft that knows one more field.
* `Config.get`: What a configuration has in a field.

## Theorems

* `CustomType.reads_read`: Custom types are read as they are written.
* `Config.readValue_of_writes`: The content of a field is read as it is written.
* `Config.get_ofDraft_foldl_take`: What the fields make of a draft.
* `Config.parse_of_writes`: A text is read as the configuration that it writes.
* `Config.writes_print`: A configuration is written by its printed text.
* `Config.parse_writes`: Both.
-/

namespace Phrasebook

open Json

namespace CustomType

/-- The names under which a field may stand: its own and the older one. -/
def Field.names : Field → List String
  | target => ["targetType", "kClassName"]
  | template => ["template", "formatStringTemplate"]

/-- The text of a field. -/
def value (t : CustomType) : Field → String
  | .target => t.target
  | .template => t.template

/-- A field of a custom type is written, under one of its names. -/
def WritesField (t : CustomType) (s : List Char) (field : Field) (rest : List Char) : Prop :=
  ∃ name ∈ field.names, Member Quotes s (name, t.value field) rest

/-- A custom type is written: an object with its two fields in some order. -/
def Writes (s : List Char) (t : CustomType) (rest : List Char) : Prop :=
  ∃ u fields, s = '\x7b' :: u ∧ Listed '\x7d' (WritesField t) true u fields rest ∧
    fields.Perm [.target, .template]

theorem ofName?_of_mem_names (field : Field) (name : String) (h : name ∈ field.names) :
    Field.ofName? name = some field := by
  have hall : ∀ name ∈ field.names, Field.ofName? name = some field := by
    cases field <;> decide
  exact hall name h

/-- What a draft knows of a field. -/
def Draft.get? (d : Draft) : Field → Option String
  | .target => d.target
  | .template => d.template

/-- A draft that also knows a field of a custom type. -/
def Draft.take (t : CustomType) (d : Draft) : Field → Draft
  | .target => { d with target := some t.target }
  | .template => { d with template := some t.template }

theorem Draft.get?_take (t : CustomType) (d : Draft) (field other : Field) :
    (d.take t field).get? other = if other = field then some (t.value other) else d.get? other := by
  cases field <;> cases other <;> rfl

/-- A draft that knows none of some fields, which are different, can take them all. -/
def Draft.Lacks (d : Draft) (fields : List Field) : Prop :=
  fields.Nodup ∧ ∀ field ∈ fields, d.get? field = none

theorem Draft.Lacks.take {t : CustomType} {d : Draft} {field : Field} {fields : List Field}
    (h : d.Lacks (field :: fields)) : (d.take t field).Lacks fields := by
  rcases h with ⟨hnodup, hlacks⟩
  rcases List.nodup_cons.mp hnodup with ⟨hfield, hrest⟩
  refine ⟨hrest, fun other hother => ?_⟩
  have hne : ¬ other = field := fun heq => hfield (heq ▸ hother)
  rw [get?_take, if_neg hne]
  exact hlacks other (List.mem_cons_of_mem _ hother)

theorem Draft.get?_foldl_take (t : CustomType) (d : Draft) (fields : List Field) (field : Field) :
    (fields.foldl (Draft.take t) d).get? field =
      if field ∈ fields then some (t.value field) else d.get? field := by
  induction fields generalizing d with
  | nil => rw [if_neg List.not_mem_nil, List.foldl_nil]
  | cons first fields ih =>
      rw [List.foldl_cons, ih, get?_take]
      by_cases hmem : field ∈ fields
      · rw [if_pos hmem, if_pos (List.mem_cons_of_mem _ hmem)]
      · simp only [List.mem_cons, hmem, or_false, if_false]

/-- The fields of a custom type are read one by one. -/
theorem steps_readField (t : CustomType) :
    Steps readField (Draft.take t) Draft.Lacks (WritesField t) := by
  rintro s field rest ⟨name, hname, hmember⟩
  refine ⟨hmember.shorter readText Quotes reads_readText _ _ _, ?_⟩
  rcases hmember with ⟨colon, u, front, hquotes, hcolon, hblanks, hvalue⟩
  refine ⟨name, colon, hquotes, fun d n fields hn hlacks => ⟨?_, hlacks.take⟩⟩
  -- The draft lacks the field, so that it is not refused as a duplicate.
  have hnone := hlacks.2 field List.mem_cons_self
  have hcolon := readColon_of_blanks colon u hcolon
  have htext := reads_readText.reads u front _ rest hblanks hvalue
  unfold readField
  rw [hn, ofName?_of_mem_names field name hname]
  cases field with
  | target =>
      have hunknown : d.target.isSome = false := by
        rw [Option.isSome_eq_false_iff, Option.isNone_iff_eq_none]
        exact hnone
      dsimp only
      rw [hunknown, if_neg Bool.false_ne_true]
      refine (Fallible.bind_eq_ok_iff _ _ _).mpr ⟨u, hcolon, ?_⟩
      exact (Fallible.bind_eq_ok_iff _ _ _).mpr ⟨_, htext, rfl⟩
  | template =>
      have hunknown : d.template.isSome = false := by
        rw [Option.isSome_eq_false_iff, Option.isNone_iff_eq_none]
        exact hnone
      dsimp only
      rw [hunknown, if_neg Bool.false_ne_true]
      refine (Fallible.bind_eq_ok_iff _ _ _).mpr ⟨u, hcolon, ?_⟩
      exact (Fallible.bind_eq_ok_iff _ _ _).mpr ⟨_, htext, rfl⟩

/-- Custom types are read as they are written. -/
theorem reads_read : Reads CustomType.read Writes where
  reads := by
    rintro s _ t rest hblanks ⟨u, fields, rfl, hlisted, hperm⟩
    have hlacks : (⟨none, none⟩ : Draft).Lacks fields := by
      refine ⟨hperm.nodup_iff.mpr (by decide), fun field _ => ?_⟩
      cases field <;> rfl
    have hfold := foldMembers_of_listed readField _ _ _ (steps_readField t) _ u rest fields hlisted
      hlacks
    have hknown : ∀ field, (fields.foldl (Draft.take t) ⟨none, none⟩).get? field =
        some (t.value field) := by
      intro field
      have hmem : field ∈ fields := by
        rw [hperm.mem_iff]
        cases field <;> decide
      rw [Draft.get?_foldl_take, if_pos hmem]
    unfold CustomType.read
    rw [skipSpace_eq_cons s u '\x7b' hblanks (by decide)]
    refine (Fallible.bind_eq_ok_iff _ _ _).mpr ⟨_, hfold, ?_⟩
    -- The draft knows both fields, whatever their order was.
    generalize fields.foldl (Draft.take t) ⟨none, none⟩ = draft at hknown ⊢
    rcases draft with ⟨target, template⟩
    have htarget : target = some t.target := hknown .target
    have htemplate : template = some t.template := hknown .template
    rw [htarget, htemplate]
    rfl
  shorter := by
    rintro _ t rest ⟨u, fields, rfl, hlisted, -⟩
    have hlength := hlisted.length_lt (fun s field rest hfield => (steps_readField t s field rest hfield).1)
    rw [List.length_cons]
    omega

/-- What is printed for a custom type writes it. -/
theorem writes_toJson (t : CustomType) (level : Nat) (rest : List Char) :
    Writes (t.toJson.chars level ++ rest) t rest := by
  have hmember : ∀ field ∈ [Field.target, Field.template], ∀ rest, WritesField t
      (Quoted.write field.name.toList ++
        ':' :: ' ' :: ((Value.string (t.value field)).chars (level + 1) ++ rest)) field rest := by
    intro field _ rest
    have hname : field.name ∈ field.names := by
      cases field <;> decide
    exact ⟨field.name, hname, _, _, _, Quoted.quotes_write field.name _, .none,
      .cons (by decide) .none, Quoted.quotes_write (t.value field) rest⟩
  rcases listed_object (WritesField t) (fun field => (field.name, .string (t.value field))) level
    [.target, .template] hmember rest with ⟨s, hs, hlisted⟩
  exact ⟨s, _, hs, hlisted, List.Perm.refl _⟩

/-- What is printed for a custom type and its identifier writes them. -/
theorem member_toJson (pair : String × CustomType) (level : Nat) (rest : List Char) :
    Member Writes (Quoted.write pair.1.toList ++
      ':' :: ' ' :: (pair.2.toJson.chars level ++ rest)) pair rest :=
  ⟨_, _, _, Quoted.quotes_write pair.1 _, .none, .cons (by decide) .none,
    writes_toJson pair.2 level rest⟩

end CustomType

namespace Config

/-- What a field of a configuration holds. -/
def Field.Content : Field → Type
  | languages => List String
  | defaultLanguage => String
  | withBasePackage => Bool
  | nestedSuffix => Option String
  | customTypes => Dict CustomType

/-- The names under which a field may stand: its own, and for custom types the older
    one. -/
def Field.names : Field → List String
  | customTypes => ["customTypes", "customClasses"]
  | field => [field.name]

/-- All fields, in the order in which they are printed. -/
def Field.all : List Field :=
  [languages, defaultLanguage, withBasePackage, nestedSuffix, customTypes]

/-- What a configuration has in a field. -/
def get (c : Config) : (field : Field) → field.Content
  | .languages => c.languages
  | .defaultLanguage => c.defaultLanguage
  | .withBasePackage => c.withBasePackage
  | .nestedSuffix => c.nestedSuffix
  | .customTypes => c.customTypes

/-- The content of a field is written. Of custom types with one identifier the last
    counts. -/
def Field.Writes : (field : Field) → List Char → field.Content → List Char → Prop
  | .languages, s, texts, rest => ∃ u, s = '[' :: u ∧ Listed ']' Quotes true u texts rest
  | .defaultLanguage, s, text, rest => Quotes s text rest
  | .withBasePackage, s, true, rest => s = 't' :: 'r' :: 'u' :: 'e' :: rest
  | .withBasePackage, s, false, rest => s = 'f' :: 'a' :: 'l' :: 's' :: 'e' :: rest
  | .nestedSuffix, s, some text, rest => Quotes s text rest
  | .nestedSuffix, s, none, rest => s = 'n' :: 'u' :: 'l' :: 'l' :: rest
  | .customTypes, s, types, rest =>
    ∃ u pairs, s = '\x7b' :: u ∧ Listed '\x7d' (Member CustomType.Writes) true u pairs rest ∧
      Dict.ofList pairs = types

/-- A field of a configuration is written, under one of its names. -/
def WritesField (c : Config) (s : List Char) (field : Field) (rest : List Char) : Prop :=
  ∃ name ∈ field.names, Member field.Writes s (name, c.get field) rest

/-- A text writes a configuration: it is an object with some of the fields, each once
    and in any order, and the fields that it leaves out are as in the default one. -/
def Writes (text : String) (c : Config) : Prop :=
  ∃ s fields rest, Blanks text.toList ('\x7b' :: s) ∧ Listed '\x7d' c.WritesField true s fields rest ∧
    Blanks rest [] ∧ fields.Nodup ∧ ∀ field, field ∉ fields → c.get field = default.get field

theorem ofName?_of_mem_names (field : Field) (name : String) (h : name ∈ field.names) :
    Field.ofName? name = some field := by
  have hall : ∀ name ∈ field.names, Field.ofName? name = some field := by
    cases field <;> decide
  exact hall name h

theorem eq_of_get_eq (c d : Config) (h : ∀ field, c.get field = d.get field) : c = d := by
  rcases c with ⟨languages, defaultLanguage, withBasePackage, nestedSuffix, customTypes⟩
  rcases d with ⟨languages', defaultLanguage', withBasePackage', nestedSuffix', customTypes'⟩
  have hlanguages : languages = languages' := h .languages
  have hdefault : defaultLanguage = defaultLanguage' := h .defaultLanguage
  have hbase : withBasePackage = withBasePackage' := h .withBasePackage
  have hsuffix : nestedSuffix = nestedSuffix' := h .nestedSuffix
  have htypes : customTypes = customTypes' := h .customTypes
  rw [hlanguages, hdefault, hbase, hsuffix, htypes]

/-- A draft that also knows a field of a configuration. -/
def Draft.take (c : Config) (d : Draft) : Field → Draft
  | .languages => { d with languages := some c.languages }
  | .defaultLanguage => { d with defaultLanguage := some c.defaultLanguage }
  | .withBasePackage => { d with withBasePackage := some c.withBasePackage }
  | .nestedSuffix => { d with nestedSuffix := some c.nestedSuffix }
  | .customTypes => { d with customTypes := some c.customTypes }

theorem Draft.knows_take (c : Config) (d : Draft) (field other : Field) :
    (d.take c field).knows other = (decide (other = field) || d.knows other) := by
  cases field <;> cases other <;> rfl

theorem get_ofDraft_take (c : Config) (d : Draft) (field other : Field) :
    (ofDraft (d.take c field)).get other =
      if other = field then c.get other else (ofDraft d).get other := by
  cases field <;> cases other <;> rfl

/-- Each field that was taken is that of the configuration, and each other one is as
    it was. -/
theorem get_ofDraft_foldl_take (c : Config) (d : Draft) (fields : List Field) (field : Field) :
    (ofDraft (fields.foldl (Draft.take c) d)).get field =
      if field ∈ fields then c.get field else (ofDraft d).get field := by
  induction fields generalizing d with
  | nil => rw [if_neg List.not_mem_nil, List.foldl_nil]
  | cons first fields ih =>
      rw [List.foldl_cons, ih, get_ofDraft_take]
      by_cases hmem : field ∈ fields
      · rw [if_pos hmem, if_pos (List.mem_cons_of_mem _ hmem)]
      · simp only [List.mem_cons, hmem, or_false, if_false]

/-- A draft that knows none of some fields, which are different, can take them all. -/
def Draft.Lacks (d : Draft) (fields : List Field) : Prop :=
  fields.Nodup ∧ ∀ field ∈ fields, d.knows field = false

theorem Draft.Lacks.take {c : Config} {d : Draft} {field : Field} {fields : List Field}
    (h : d.Lacks (field :: fields)) : (d.take c field).Lacks fields := by
  rcases h with ⟨hnodup, hlacks⟩
  rcases List.nodup_cons.mp hnodup with ⟨hfield, hrest⟩
  refine ⟨hrest, fun other hother => ?_⟩
  have hne : ¬ other = field := fun heq => hfield (heq ▸ hother)
  rw [knows_take, decide_eq_false hne, Bool.false_or]
  exact hlacks other (List.mem_cons_of_mem _ hother)

/-- The content of a field is not written by nothing. -/
theorem Field.Writes.shorter (field : Field) (s : List Char) (content : field.Content)
    (rest : List Char) (h : field.Writes s content rest) : rest.length < s.length := by
  -- Every value has a first character of its own, behind which the rest follows.
  cases field with
  | languages =>
      rcases h with ⟨u, rfl, hlisted⟩
      have hlength := hlisted.length_lt reads_readText.shorter
      rw [List.length_cons]
      omega
  | defaultLanguage => exact reads_readText.shorter _ _ _ h
  | withBasePackage =>
      cases content with
      | true =>
          have hs : s = 't' :: 'r' :: 'u' :: 'e' :: rest := h
          simp only [hs, List.length_cons]
          omega
      | false =>
          have hs : s = 'f' :: 'a' :: 'l' :: 's' :: 'e' :: rest := h
          simp only [hs, List.length_cons]
          omega
  | nestedSuffix =>
      cases content with
      | none =>
          have hs : s = 'n' :: 'u' :: 'l' :: 'l' :: rest := h
          simp only [hs, List.length_cons]
          omega
      | some suffix => exact reads_readText.shorter _ _ _ h
  | customTypes =>
      rcases h with ⟨u, pairs, rfl, hlisted, -⟩
      have hlength := hlisted.length_lt (Member.shorter _ _ CustomType.reads_read)
      rw [List.length_cons]
      omega

/-- The content of a field is read as it is written. -/
theorem readValue_of_writes (c : Config) (d : Draft) (field : Field) (s front rest : List Char)
    (hblanks : Blanks s front) (h : field.Writes front (c.get field) rest) :
    readValue d field s = .ok (d.take c field, rest) := by
  -- Each field is read by a reader of its own, which first passes over the blanks.
  cases field with
  | languages =>
      rcases h with ⟨u, rfl, hlisted⟩
      have hread : readTexts s = .ok (c.languages, rest) := by
        unfold readTexts
        rw [skipSpace_eq_cons s u '[' hblanks (by decide)]
        exact readItems_of_listed readText Quotes reads_readText (fun _ _ _ h => h.exists_cons) u
          rest _ hlisted
      exact (Fallible.bind_eq_ok_iff _ _ _).mpr ⟨_, hread, rfl⟩
  | defaultLanguage =>
      have hread := reads_readText.reads s front _ rest hblanks h
      exact (Fallible.bind_eq_ok_iff _ _ _).mpr ⟨_, hread, rfl⟩
  | withBasePackage =>
      have hread : readFlag s = .ok (c.withBasePackage, rest) := by
        change Field.withBasePackage.Writes front c.withBasePackage rest at h
        unfold readFlag
        cases hflag : c.withBasePackage with
        | true =>
            rw [hflag] at h
            have hfront : front = 't' :: 'r' :: 'u' :: 'e' :: rest := h
            rw [hfront] at hblanks
            rw [skipSpace_eq_cons s _ 't' hblanks (by decide)]
            rfl
        | false =>
            rw [hflag] at h
            have hfront : front = 'f' :: 'a' :: 'l' :: 's' :: 'e' :: rest := h
            rw [hfront] at hblanks
            rw [skipSpace_eq_cons s _ 'f' hblanks (by decide)]
            rfl
      exact (Fallible.bind_eq_ok_iff _ _ _).mpr ⟨_, hread, rfl⟩
  | nestedSuffix =>
      have hread : readOptionalText s = .ok (c.nestedSuffix, rest) := by
        unfold readOptionalText
        change Field.nestedSuffix.Writes front c.nestedSuffix rest at h
        cases hsuffix : c.nestedSuffix with
        | none =>
            rw [hsuffix] at h
            have hfront : front = 'n' :: 'u' :: 'l' :: 'l' :: rest := h
            rw [hfront] at hblanks
            rw [skipSpace_eq_cons s _ 'n' hblanks (by decide)]
            rfl
        | some suffix =>
            rw [hsuffix] at h
            have hquotes : Quotes front suffix rest := h
            -- The reader of texts starts at the quote again, now with no blanks in front.
            have htext := reads_readText.reads front front _ rest .none hquotes
            rcases hquotes.exists_cons with ⟨cs, rfl⟩
            rw [skipSpace_eq_cons s cs '"' hblanks (by decide)]
            exact (Fallible.bind_eq_ok_iff _ _ _).mpr ⟨_, htext, rfl⟩
      exact (Fallible.bind_eq_ok_iff _ _ _).mpr ⟨_, hread, rfl⟩
  | customTypes =>
      rcases h with ⟨u, pairs, rfl, hlisted, hpairs⟩
      have hread : readTable CustomType.read s = .ok (c.customTypes, rest) := by
        rcases readMembers_of_listed _ _ CustomType.reads_read u rest pairs hlisted with
          ⟨members, hmembers, hmap⟩
        unfold readTable
        rw [skipSpace_eq_cons s u '\x7b' hblanks (by decide)]
        refine (Fallible.bind_eq_ok_iff _ _ _).mpr ⟨_, hmembers, ?_⟩
        dsimp only
        rw [hmap, hpairs]
        rfl
      exact (Fallible.bind_eq_ok_iff _ _ _).mpr ⟨_, hread, rfl⟩

/-- The fields of a configuration are read one by one. -/
theorem steps_readField (c : Config) :
    Steps readField (Draft.take c) Draft.Lacks c.WritesField := by
  rintro s field rest ⟨name, hname, colon, u, front, hquotes, hcolon, hblanks, hvalue⟩
  constructor
  · have hlength := hquotes.shorter
    have hlength' := hcolon.length_le
    have hlength'' := hblanks.length_le
    have hshorter := hvalue.shorter
    rw [List.length_cons] at hlength'
    omega
  · refine ⟨name, colon, hquotes, fun d n fields hn hlacks => ⟨?_, hlacks.take⟩⟩
    have hunknown := hlacks.2 field List.mem_cons_self
    unfold readField
    rw [hn, ofName?_of_mem_names field name hname]
    dsimp only
    rw [hunknown, if_neg Bool.false_ne_true]
    refine (Fallible.bind_eq_ok_iff _ _ _).mpr ⟨u, readColon_of_blanks colon u hcolon, ?_⟩
    exact readValue_of_writes c d field u front rest hblanks hvalue

/-- A text is read as the configuration that it writes. -/
theorem parse_of_writes (text : String) (c : Config) (h : Writes text c) : parse text = .ok c := by
  rcases h with ⟨s, fields, rest, hblanks, hlisted, hrest, hnodup, homitted⟩
  have hlacks : Draft.empty.Lacks fields := by
    refine ⟨hnodup, fun field _ => ?_⟩
    cases field <;> rfl
  have hfold := foldMembers_of_listed readField _ _ _ (steps_readField c) .empty s rest fields
    hlisted hlacks
  -- Reading fills a draft, and the draft makes up the configuration that was written.
  have hdraft : ofDraft (fields.foldl (Draft.take c) .empty) = c := by
    refine eq_of_get_eq _ _ (fun field => ?_)
    rw [get_ofDraft_foldl_take]
    by_cases hmem : field ∈ fields
    · rw [if_pos hmem]
    · -- Of what is not known the default is taken, which is what was left out.
      rw [if_neg hmem, homitted field hmem]
      rfl
  have hread : read text.toList = .ok (c, rest) := by
    unfold read
    rw [skipSpace_eq_cons _ s '\x7b' hblanks (by decide)]
    refine (Fallible.bind_eq_ok_iff _ _ _).mpr ⟨_, hfold, ?_⟩
    dsimp only
    rw [hdraft]
    rfl
  unfold parse readWhole
  dsimp only
  rw [hread]
  dsimp only
  rw [skipSpace_eq_of_blanks rest [] hrest]
  rfl

/-- A field as a JSON value. -/
def fieldJson (c : Config) : Field → Value
  | .languages => .array (c.languages.map .string)
  | .defaultLanguage => .string c.defaultLanguage
  | .withBasePackage => .boolean c.withBasePackage
  | .nestedSuffix => match c.nestedSuffix with | some s => .string s | none => .null
  | .customTypes => .object (c.customTypes.pairs.map (fun pair => (pair.1, pair.2.toJson)))

/-- What is printed for a field writes it. -/
theorem writes_fieldJson (c : Config) (field : Field) (level : Nat) (rest : List Char) :
    field.Writes ((c.fieldJson field).chars level ++ rest) (c.get field) rest := by
  cases field with
  | languages =>
      exact listed_array Quotes .string level (fun text rest => Quoted.quotes_write text rest)
        c.languages rest
  | defaultLanguage => exact Quoted.quotes_write c.defaultLanguage rest
  | withBasePackage =>
      rcases c with ⟨_, _, _ | _, _, _⟩
      · rfl
      · rfl
  | nestedSuffix =>
      rcases c with ⟨_, _, _, _ | suffix, _⟩
      · rfl
      · exact Quoted.quotes_write suffix rest
  | customTypes =>
      rcases listed_object (Member CustomType.Writes) (fun pair => (pair.1, pair.2.toJson)) level
        c.customTypes.pairs (fun pair _ => CustomType.member_toJson pair (level + 1)) rest with
        ⟨u, hu, hlisted⟩
      exact ⟨u, c.customTypes.pairs, hu, hlisted, Dict.ofList_pairs c.customTypes⟩

/-- A configuration is written by its printed text. -/
theorem writes_print (c : Config) : Writes c.print c := by
  have hmember : ∀ field ∈ Field.all, ∀ rest, c.WritesField (Quoted.write field.name.toList ++
      ':' :: ' ' :: ((c.fieldJson field).chars 1 ++ rest)) field rest := by
    intro field _ rest
    have hname : field.name ∈ field.names := by
      cases field <;> decide
    exact ⟨field.name, hname, _, _, _, Quoted.quotes_write field.name _, .none,
      .cons (by decide) .none, writes_fieldJson c field 1 rest⟩
  rcases listed_object c.WritesField (fun field => (field.name, c.fieldJson field)) 0 Field.all
    hmember [] with ⟨s, hs, hlisted⟩
  refine ⟨s, Field.all, [], ?_, hlisted, .none, by decide, ?_⟩
  · have htext : c.print.toList = '\x7b' :: s := by
      rw [← hs, List.append_nil]
      exact String.toList_ofList
    rw [htext]
    exact .none
  -- Nothing is left out, so there is no default to fall back on.
  · intro field hfield
    exfalso
    refine hfield ?_
    cases field <;> decide

/-- What is printed for a configuration is read back, and so is every other text that
    writes it: one with the fields in another order, with older names, with other
    spellings of its strings and blanks elsewhere, or without fields that are as in the
    default configuration. -/
theorem parse_writes (c : Config) :
    parse c.print = .ok c ∧ ∀ text, Writes text c → parse text = .ok c := by
  have hall : ∀ text, Writes text c → parse text = .ok c := fun text h => parse_of_writes text c h
  exact ⟨hall c.print (writes_print c), hall⟩

/-- Older names, fields in another order, an escape, blanks, no suffix, and three fields
    left out. -/
theorem parse_writes_older_names : ∃ text c,
    text = "\x7b \"customClasses\":\x7b\"M\":\x7b\"template\":\"\x7bvar\x7d\"," ++
      "\"kClassName\":\"\\u0041\"\x7d\x7d,\n\"nestedSuffix\":null\x7d" ∧
    Writes text c ∧ parse text = .ok c ∧ c.nestedSuffix = none ∧
    c.customTypes.pairs = [("M", ⟨"A", "\x7bvar\x7d"⟩)] ∧ c.languages = ["de", "en"] := by
  have hescape : ∀ rest, Quotes ('"' :: '\\' :: 'u' :: '0' :: '0' :: '4' :: '1' :: '"' :: rest)
      "A" rest := by
    intro rest
    have hvalue : hexValue? '0' '0' '4' '1' = some 65 := by decide
    have hletter : "A" = String.ofList [Char.ofNat 65] := by decide
    rw [hletter]
    exact .mk (.unit hvalue (by decide) (by decide) .close)
  -- The fields of the type stand in another order than it is printed in.
  have htype : ∀ rest, CustomType.Writes ('\x7b' :: (Quoted.write "template".toList ++ ':' ::
      (Quoted.write "\x7bvar\x7d".toList ++ ',' :: (Quoted.write "kClassName".toList ++ ':' ::
        '"' :: '\\' :: 'u' :: '0' :: '0' :: '4' :: '1' :: '"' :: '\x7d' :: rest))))
      ⟨"A", "\x7bvar\x7d"⟩ rest := by
    intro rest
    refine ⟨_, [.template, .target], rfl, ?_, by decide⟩
    refine .first .none ⟨"template", by decide, _, _, _, Quoted.quotes_write _ _, .none, .none,
      Quoted.quotes_write "\x7bvar\x7d" _⟩ ?_
    exact .next .none .none ⟨"kClassName", by decide, _, _, _, Quoted.quotes_write _ _, .none,
      .none, hescape _⟩ (.close .none)
  let c : Config :=
    { default with nestedSuffix := none, customTypes := .ofList [("M", ⟨"A", "\x7bvar\x7d"⟩)] }
  have hwrites : ∀ (text : String) (s : List Char), text.toList = '\x7b' :: s →
      s = ' ' :: (Quoted.write "customClasses".toList ++ ':' :: '\x7b' ::
        (Quoted.write "M".toList ++ ':' :: '\x7b' :: (Quoted.write "template".toList ++ ':' ::
          (Quoted.write "\x7bvar\x7d".toList ++ ',' :: (Quoted.write "kClassName".toList ++ ':' ::
            '"' :: '\\' :: 'u' :: '0' :: '0' :: '4' :: '1' :: '"' :: '\x7d' :: '\x7d' :: ',' ::
              '\n' :: (Quoted.write "nestedSuffix".toList ++
                [':', 'n', 'u', 'l', 'l', '\x7d'])))))) → Writes text c := by
    intro text s htext hs
    refine ⟨s, [.customTypes, .nestedSuffix], [], ?_, ?_, .none, by decide, ?_⟩
    · rw [htext]
      exact .none
    · rw [hs]
      refine .first (.cons (by decide) .none) ⟨"customClasses", by decide, _, _, _,
        Quoted.quotes_write _ _, .none, .none, _, [("M", ⟨"A", "\x7bvar\x7d"⟩)], rfl,
        .first .none ⟨_, _, _, Quoted.quotes_write "M" _, .none, .none, htype _⟩ (.close .none),
        rfl⟩ ?_
      exact .next .none (.cons (by decide) .none) ⟨"nestedSuffix", by decide, _, _, _,
        Quoted.quotes_write _ _, .none, .none, rfl⟩ (.close .none)
    -- Of the other fields the configuration has the defaults.
    · intro field hfield
      cases field with
      | customTypes => exact absurd (by decide) hfield
      | nestedSuffix => exact absurd (by decide) hfield
      | languages => rfl
      | defaultLanguage => rfl
      | withBasePackage => rfl
  refine ⟨_, c, rfl, hwrites _ _ ?_ rfl, (parse_writes c).2 _ (hwrites _ _ ?_ rfl), rfl, by decide,
    rfl⟩
  · decide +kernel
  · decide +kernel

end Config

end Phrasebook
