import Phrasebook.Config.Basic
import Phrasebook.Json.Typed

/-!
# Reading Configurations

A configuration is a JSON object with any of its fields, in any order. Missing
fields take their value from the default configuration, and unknown ones are
passed over. Some fields have an older name besides their own; under either name
a field may occur once. A configuration may also be an array of the values of its
fields in the order of their declaration, of which the last may be missing. The
same holds for a custom type, except that none of its fields may be missing.

## Main definitions

* `Config.Field`, `CustomType.Field`: The fields and their names.
* `CustomType.read`: A custom type.
* `Config.read`: A configuration.
* `Config.parse`: The configuration of a text.
-/

namespace Phrasebook

open Json

namespace CustomType

/-- The fields of a custom type. -/
inductive Field where
  | target
  | template
  deriving DecidableEq

/-- The name under which a field is written. -/
def Field.name : Field → String
  | target => "targetType"
  | template => "template"

/-- The field with a name. -/
def Field.ofName? (name : String) : Option Field :=
  if name = "targetType" ∨ name = "kClassName" then some target
  else if name = "template" ∨ name = "formatStringTemplate" then some template
  else none

/-- What is known of a custom type while its members are read. -/
structure Draft where
  target : Option String
  template : Option String

/-- The reader of the value of a member, given the members before it. -/
def readField (draft : Draft) (name : Name) : Reader Draft := fun s => do
  match Field.ofName? name.text with
  | some .target =>
    if draft.target.isSome then .error (repeated Field.target.name s)
    else
      let (text, s) ← readText (← readColon s)
      return ({ draft with target := some text }, s)
  | some .template =>
    if draft.template.isSome then .error (repeated Field.template.name s)
    else
      let (text, s) ← readText (← readColon s)
      return ({ draft with template := some text }, s)
  | none =>
    let s ← skipValue (← readColon s)
    return (draft, s)

/-- The custom type of a draft, behind whose object `s` stands. -/
def ofDraft (draft : Draft) (s : List Char) : Except Fault CustomType :=
  match draft.target, draft.template with
  | some target, some template => .ok ⟨target, template⟩
  | none, _ => .error (.here (.missingField Field.target.name) s)
  | some _, none => .error (.here (.missingField Field.template.name) s)

/-- The next text of an array that has `count` texts in front. -/
def readElement (count : Nat) : Reader String := fun s => do
  match ← nextItem (count = 0) s with
  | some s => readText s
  | none =>
    .error (.here (.tooFewElements count "struct CustomArgumentType with 2 elements")
      (behindClosing s))

/-- A custom type. -/
def read : Reader CustomType := fun s => do
  match skipSpace s with
  | '\x7b' :: cs =>
    let (draft, rest) ← foldMembers readField ⟨none, none⟩ cs
    let type ← ofDraft draft rest
    return (type, rest)
  | '[' :: cs =>
    let (target, rest) ← readElement 0 cs
    let (template, rest) ← readElement 1 rest
    let rest ← readEnd rest
    return (⟨target, template⟩, rest)
  | other => .error (mismatch "struct CustomArgumentType" other)

end CustomType

namespace Config

/-- The fields of a configuration. -/
inductive Field where
  | languages
  | defaultLanguage
  | withBasePackage
  | nestedSuffix
  | customTypes
  deriving DecidableEq

/-- The name under which a field is written. -/
def Field.name : Field → String
  | languages => "languages"
  | defaultLanguage => "defaultLanguage"
  | withBasePackage => "withBasePackage"
  | nestedSuffix => "nestedSuffix"
  | customTypes => "customTypes"

/-- The field with a name. -/
def Field.ofName? (name : String) : Option Field :=
  if name = "languages" then some languages
  else if name = "defaultLanguage" then some defaultLanguage
  else if name = "withBasePackage" then some withBasePackage
  else if name = "nestedSuffix" then some nestedSuffix
  else if name = "customTypes" ∨ name = "customClasses" then some customTypes
  else none

/-- What is known of a configuration while its members are read. -/
structure Draft where
  languages : Option (List String)
  defaultLanguage : Option String
  withBasePackage : Option Bool
  nestedSuffix : Option (Option String)
  customTypes : Option (Dict CustomType)

/-- The draft of which nothing is known. -/
def Draft.empty : Draft := ⟨none, none, none, none, none⟩

/-- Whether a field is known. -/
def Draft.knows (d : Draft) : Field → Bool
  | .languages => d.languages.isSome
  | .defaultLanguage => d.defaultLanguage.isSome
  | .withBasePackage => d.withBasePackage.isSome
  | .nestedSuffix => d.nestedSuffix.isSome
  | .customTypes => d.customTypes.isSome

/-- The configuration of a draft; what is not known is as in the default one. -/
def ofDraft (d : Draft) : Config where
  languages := d.languages.getD default.languages
  defaultLanguage := d.defaultLanguage.getD default.defaultLanguage
  withBasePackage := d.withBasePackage.getD default.withBasePackage
  nestedSuffix := d.nestedSuffix.getD default.nestedSuffix
  customTypes := d.customTypes.getD default.customTypes

/-- The reader of the value of a field. -/
def readValue (d : Draft) : Field → Reader Draft
  | .languages => fun s => do
    let (x, s) ← readTexts s
    return ({ d with languages := some x }, s)
  | .defaultLanguage => fun s => do
    let (x, s) ← readText s
    return ({ d with defaultLanguage := some x }, s)
  | .withBasePackage => fun s => do
    let (x, s) ← readFlag s
    return ({ d with withBasePackage := some x }, s)
  | .nestedSuffix => fun s => do
    let (x, s) ← readOptionalText s
    return ({ d with nestedSuffix := some x }, s)
  | .customTypes => fun s => do
    let (x, s) ← readTable CustomType.read s
    return ({ d with customTypes := some x }, s)

/-- The reader of the value of a member, given the members before it. -/
def readField (d : Draft) (name : Name) : Reader Draft := fun s => do
  match Field.ofName? name.text with
  | some field =>
    if d.knows field then .error (repeated field.name s)
    else readValue d field (← readColon s)
  | none =>
    let s ← skipValue (← readColon s)
    return (d, s)

/-- The values of the given fields, in an array of which the last may be
    missing. -/
def readFields : (first : Bool) → Draft → List Field → Reader Draft
  | _, d, [] => fun s => .ok (d, s)
  | first, d, field :: fields => fun s => do
    match ← nextItem first s with
    | none => return (d, s)
    | some s =>
      let (d, s) ← readValue d field s
      readFields false d fields s

/-- A configuration. -/
def read : Reader Config := fun s => do
  match skipSpace s with
  | '\x7b' :: cs =>
    let (d, rest) ← foldMembers readField .empty cs
    return (ofDraft d, rest)
  | '[' :: cs =>
    let fields := [.languages, .defaultLanguage, .withBasePackage, .nestedSuffix, .customTypes]
    let (d, rest) ← readFields true .empty fields cs
    let rest ← readEnd rest
    return (ofDraft d, rest)
  | other => .error (mismatch "struct CompilerConfig" other)

/-- The configuration of a text. -/
def parse (text : String) : Except Json.Error Config := readWhole read text

end Config

end Phrasebook
