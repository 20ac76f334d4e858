import Phrasebook.Dict

/-!
# Defects of Messages

Why the messages of some locales cannot be compiled. A defect is stored as its
cause, with the names that it is about. The words for it, and the key and the
document that it belongs to, are functions of the cause.

## Main definitions

* `Signature`: The arguments of a message and their types.
* `Malformation`: What is wrong with a tree of messages.
* `Misplacement`: What is wrong with the placeholders of a text.
* `Defect`: Why compilation fails.
* `Defect.message`: The words for a defect.
* `Defect.context`: The key that a defect is about, and its locale.
-/

namespace Phrasebook

/-- The type of every argument of a message, by the name of its variable. -/
abbrev Signature := Dict String

/-- A signature as it is shown. -/
def Signature.display (s : Signature) : String :=
  "\x7b" ++ String.intercalate ", " (s.pairs.map (fun (name, type) => name ++ ": " ++ type)) ++
    "\x7d"

/-- What is wrong with a tree of messages or with a key of it. -/
inductive Malformation where
  /-- The document is no object, but something of this kind. -/
  | rootNotObject (kind : String)
  /-- A value that is neither a text nor an object, but something of this kind. -/
  | leafNotText (kind : String)
  /-- A name of which nothing is left once it is normalized. -/
  | emptySegment (name : String)
  /-- A segment that is only the suffix which marks inner groups. -/
  | bareSuffix (suffix : String)
  deriving DecidableEq

/-- The words for a malformation. -/
def Malformation.message : Malformation → String
  | rootNotObject kind => "expected an object at the document root, found " ++ kind
  | leafNotText kind => "expected a string or an object, found " ++ kind
  | emptySegment name => "segment name '" ++ name ++ "' is empty after removing dots"
  | bareSuffix suffix =>
    "segment '" ++ suffix ++ "' has no name besides the suffix '" ++ suffix ++ "'"

/-- What is wrong with the placeholders of a text. -/
inductive Misplacement where
  /-- A placeholder stands between another pair of braces. -/
  | wrapped
  /-- Some of the placeholders are spelled alike. -/
  | repeated (distinct total : Nat)
  /-- A variable has two types. -/
  | conflicting (variableName first second : String)
  deriving DecidableEq

/-- The words for a misplacement. -/
def Misplacement.message : Misplacement → String
  | wrapped => "nested or overlapping braces are not supported"
  | repeated distinct total =>
    "parsed " ++ toString distinct ++ " arguments but found " ++ toString total ++
      " placeholder matches"
  | conflicting name first second =>
    "variable '" ++ name ++ "' is declared as both " ++ first ++ " and " ++ second

/-- Why messages cannot be compiled. -/
inductive Defect where
  | malformed (key : String) (cause : Malformation)
  /-- Two texts of one document have the same key. -/
  | repeatedKey (key : String)
  | unknownType (identifier variableName : String)
  | placeholders (text : String) (cause : Misplacement)
  /-- A locale has a key that the default locale lacks. -/
  | foreignKey (locale key : String)
  /-- The arguments of a text differ from those of the default text. -/
  | signatures (key locale : String) (expected found : Signature)
  /-- A message has the name of an inner group, or of another message; the name
      leads through the groups around it. -/
  | nameTaken (package name : String)
  deriving DecidableEq

namespace Defect

/-- The words for a defect. -/
def message : Defect → String
  | malformed key cause => "Malformed input at '" ++ key ++ "': " ++ cause.message
  | repeatedKey key =>
    "Duplicate key '" ++ key ++ "' after removing dots and whitespace from segment names"
  | unknownType identifier name =>
    "No transformation found for type '" ++ identifier ++ "' (used in variable '" ++ name ++ "')"
  | placeholders text cause =>
    "Failed to parse arguments from '" ++ text ++ "': " ++ cause.message
  | foreignKey locale key =>
    "Locale '" ++ locale ++ "' defines key '" ++ key ++
      "' which is not present in the default locale"
  | signatures key locale expected found =>
    "Arguments for '" ++ key ++ "' do not match between the default locale and '" ++ locale ++
      "': expected " ++ expected.display ++ ", found " ++ found.display
  | nameTaken package name => "Duplicate message '" ++ name ++ "' in package '" ++ package ++ "'"

/-- The key that a defect is about, and the locale of its document; without a
    locale it is the document that was being read, or the default one. -/
def context : Defect → Option (Option String × String)
  | foreignKey locale key => some (some locale, key)
  | signatures key locale _ _ => some (some locale, key)
  | malformed key _ => if key.isEmpty then none else some (none, key)
  | repeatedKey key => if key.isEmpty then none else some (none, key)
  | unknownType .. => none
  | placeholders .. => none
  | nameTaken .. => none

end Defect

end Phrasebook
