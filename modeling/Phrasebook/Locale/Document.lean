import Phrasebook.Json.Document
import Phrasebook.Locale.Flatten
import Phrasebook.Locale.KeySpan

/-!
# Locale Documents

The messages of one language, read from the text of its file.

## Main definitions

* `Document`: The messages of a language, with the places of their keys.
* `DocumentError`: Why a text is no document.
* `Document.parse`: The document that a text writes.
* `Document.locate?`: Where a key stands.
-/

namespace Phrasebook

/-- The messages of a language. -/
structure Document where
  locale : String
  path : String
  messages : Dict String
  /-- Where the keys of the document stand in its text. -/
  spans : Dict Span

/-- Why a text is no document. -/
inductive DocumentError where
  | notJson (path : String) (cause : Json.Error)
  | defective (cause : Defect) (location : Option Location)

namespace DocumentError

/-- The words for why a text is no document. -/
def message : DocumentError → String
  | notJson path cause => "Failed to parse language file " ++ path ++ ": " ++ cause.message
  | defective cause location => Location.lead location ++ cause.message

end DocumentError

namespace Document

/-- The document that `text`, the content of the file at `path`, writes. -/
def parse (locale path text : String) : Except DocumentError Document :=
  match Json.parse text with
  | .error cause => .error (.notJson path cause)
  | .ok tree =>
    let spans := Locale.spans text tree
    match Locale.flatten tree.value with
    | .ok messages => .ok ⟨locale, path, messages, spans⟩
    | .error cause =>
      let span? := cause.context.bind (fun (_, key) => spans.get? key)
      .error (.defective cause (span?.map (Location.mk path)))

/-- Where a key stands in the file of a document. -/
def locate? (d : Document) (key : String) : Option Location :=
  (d.spans.get? key).map (Location.mk d.path)

end Document

end Phrasebook
