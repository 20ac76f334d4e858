import Phrasebook.Text.Cut

/-!
# Format Templates

How the value of an argument is shown: with a text in front and a text behind.
A template is written as one text in which the marker `{var}` stands for
the value, exactly once.

## Main definitions

* `Template`: The texts around a value.
* `Template.ofString?`: The template that a text writes.
* `Template.fill`: A value in its template.
-/

namespace Phrasebook

/-- The texts around the value of an argument. -/
structure Template where
  lead : String
  trail : String
  deriving DecidableEq, Inhabited

namespace Template

/-- What stands for the value where a template is written. -/
def marker : String := "\x7bvar\x7d"

/-- The template that shows a value as it is. -/
def bare : Template := ⟨"", ""⟩

/-- Whether a template shows a value as it is. -/
def isBare (t : Template) : Bool := t = bare

/-- The template that `text` writes, if the marker stands in it exactly once. -/
def ofString? (text : String) : Option Template := do
  let (lead, trail) ← Text.cut? marker.toList text.toList
  if (Text.cut? marker.toList trail).isSome then none
  else some ⟨String.ofList lead, String.ofList trail⟩

/-- A value in its template. -/
def fill (t : Template) (value : String) : String := t.lead ++ value ++ t.trail

end Template

end Phrasebook
