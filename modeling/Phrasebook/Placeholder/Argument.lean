import Phrasebook.Config.Basic
import Phrasebook.Message.Defect
import Phrasebook.Message.Template

/-!
# Arguments

A placeholder names a variable and the identifier of a type. The identifier is
looked up first among the types of the configuration and then among the native
ones, so a configuration can give a native identifier another meaning.

## Main definitions

* `Argument`: A variable with its type and template.
* `nativeTypes`: The types that need no configuration.
* `Argument.resolve`: The argument that a placeholder names.
-/

namespace Phrasebook

/-- A variable of a message, the type of its values, and how they are shown. -/
structure Argument where
  variableName : String
  typeName : String
  template : Template
  deriving DecidableEq, Inhabited

/-- The types that need no configuration. Their values are shown as they are. -/
def nativeTypes : List String :=
  ["String", "Int", "Long", "Float", "Double", "Boolean", "Char"]

namespace Argument

/-- The identifier of the type of a placeholder that names none. -/
def defaultType : String := "String"

/-- The argument of a custom type. A template that is not well written shows the
    value as it is; a valid configuration has none. -/
def ofCustomType (name : String) (type : CustomType) : Argument :=
  ⟨name, type.target, (Template.ofString? type.template).getD .bare⟩

/-- The argument for a variable and the identifier of its type. -/
def resolve (types : Dict CustomType) (name identifier : String) : Except Defect Argument :=
  match types.get? identifier with
  | some type => .ok (ofCustomType name type)
  | none =>
    if identifier ∈ nativeTypes then .ok ⟨name, identifier, .bare⟩
    else .error (.unknownType identifier name)

end Argument

end Phrasebook
