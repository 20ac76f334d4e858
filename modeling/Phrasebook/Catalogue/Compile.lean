import Phrasebook.Catalogue.Group
import Phrasebook.Catalogue.Merge

/-!
# Compiling Messages

From the messages of all locales to one catalogue.

## Main definitions

* `compile`: The catalogue of the messages of all locales.
-/

namespace Phrasebook

/-- The catalogue of the default messages and their editions. -/
def compile (config : Config) (base : Dict String) (editions : List Edition) :
    Except Defect Catalogue := do
  let entries ← merge config base editions
  Catalogue.ofEntries config entries

end Phrasebook
