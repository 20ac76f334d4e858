import Phrasebook.Json.Quoted
import Phrasebook.Json.Value

/-!
# Printing JSON

The text of a value, laid out with one item or member a line and two spaces for
each level. An empty array or object stays on its line, and the text has no line
feed at its end.

## Main definitions

* `Value.print`: The text of a value.
-/

namespace Phrasebook

namespace Json

/-- A new line at a level of indentation. -/
def newLine (level : Nat) : List Char := '\n' :: List.replicate (2 * level) ' '

mutual

/-- The characters of a value whose lines are indented by `level`. -/
def Value.chars (level : Nat) : Value → List Char
  | .null => ['n', 'u', 'l', 'l']
  | .boolean true => ['t', 'r', 'u', 'e']
  | .boolean false => ['f', 'a', 'l', 's', 'e']
  | .number value => value.text.toList
  | .string text => Quoted.write text.toList
  | .array [] => ['[', ']']
  | .array (item :: items) =>
    '[' :: newLine (level + 1) ++ item.chars (level + 1) ++ Value.itemChars (level + 1) items ++
      newLine level ++ [']']
  | .object [] => ['\x7b', '\x7d']
  | .object ((name, value) :: members) =>
    '\x7b' :: newLine (level + 1) ++ Quoted.write name.toList ++ [':', ' '] ++
      value.chars (level + 1) ++ Value.memberChars (level + 1) members ++ newLine level ++ ['\x7d']
termination_by structural value => value

/-- The characters of the items behind the first. -/
def Value.itemChars (level : Nat) : List Value → List Char
  | [] => []
  | item :: items => ',' :: newLine level ++ item.chars level ++ Value.itemChars level items
termination_by structural items => items

/-- The characters of the members behind the first. -/
def Value.memberChars (level : Nat) : List (String × Value) → List Char
  | [] => []
  | (name, value) :: members =>
    ',' :: newLine level ++ Quoted.write name.toList ++ [':', ' '] ++ value.chars level ++
      Value.memberChars level members
termination_by structural members => members

end

/-- The text of a value. -/
def Value.print (v : Value) : String := String.ofList (v.chars 0)

end Json

end Phrasebook
