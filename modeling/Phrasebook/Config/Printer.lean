import Phrasebook.Config.Basic
import Phrasebook.Json.Printer

/-!
# Printing Configurations

A configuration is written as an object with all its fields in the order of their
declaration, under their own names, and custom types by identifier.

## Main definitions

* `Config.toJson`: A configuration as a JSON value.
* `Config.print`: The text of a configuration.
-/

namespace Phrasebook

open Json (Value)

/-- A custom type as a JSON value. -/
def CustomType.toJson (t : CustomType) : Value :=
  .object [("targetType", .string t.target), ("template", .string t.template)]

namespace Config

/-- A configuration as a JSON value. -/
def toJson (c : Config) : Value :=
  .object
    [("languages", .array (c.languages.map .string)),
     ("defaultLanguage", .string c.defaultLanguage),
     ("withBasePackage", .boolean c.withBasePackage),
     ("nestedSuffix", match c.nestedSuffix with | some s => .string s | none => .null),
     ("customTypes", .object (c.customTypes.pairs.map (fun (name, type) => (name, type.toJson))))]

/-- The text of a configuration. -/
def print (c : Config) : String := c.toJson.print

end Config

end Phrasebook
