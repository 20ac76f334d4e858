import Phrasebook.Files.Access
import Phrasebook.Locale.Document

/-!
# Loading Documents

The document of a locale is the file of the input directory that is named for the
locale.

## Main definitions

* `Locale.filePath`: The path of the file of a locale.
* `LoadError`: Why a document cannot be loaded.
* `Document.load`: The document of a locale.
-/

namespace Phrasebook

/-- The path of the file of a locale. -/
def Locale.filePath (input locale : String) : String := Path.join input (locale ++ ".json")

/-- Why a document cannot be loaded. -/
inductive LoadError where
  | missing (locale path : String)
  | inaccessible (path : String)
  | malformed (cause : DocumentError)

/-- The words for a document that is missing. -/
def LoadError.missingMessage (locale path : String) : String :=
  "Language file for '" ++ locale ++ "' not found at " ++ path

namespace Document

variable {m : Type → Type} [Monad m] [FileAccess m]

/-- The document of a locale. -/
def load (input locale : String) : ExceptT LoadError m Document := do
  let path := Locale.filePath input locale
  if ← FileAccess.isFile path then
    match ← FileAccess.readText? path with
    | none => throw (.inaccessible path)
    | some text =>
      match parse locale path text with
      | .error cause => throw (.malformed cause)
      | .ok document => return document
  else
    throw (.missing locale path)

end Document

end Phrasebook
