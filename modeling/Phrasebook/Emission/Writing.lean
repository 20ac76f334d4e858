import Phrasebook.Emission.Printer
import Phrasebook.Files.Access

/-!
# Writing Manifests

A manifest is written to one file of the output directory.

## Main definitions

* `Manifest.write`: Write a manifest into a directory.
-/

namespace Phrasebook

namespace Manifest

/-- The name of the file of a manifest. -/
def fileName : String := "messages.json"

variable {m : Type → Type} [Monad m] [FileAccess m]

/-- Write a manifest into a directory. The answer is the paths that were written;
    a failure is the path that could not be. -/
def write (manifest : Manifest) (output : String) : ExceptT String m (List String) := do
  let path := Path.join output fileName
  if ← FileAccess.writeText path manifest.print then return [path] else throw path

end Manifest

end Phrasebook
