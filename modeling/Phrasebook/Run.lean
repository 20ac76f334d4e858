import Phrasebook.Catalogue.Compile
import Phrasebook.Config.Loading
import Phrasebook.Emission.Writing
import Phrasebook.Locale.Loading

/-!
# Runs

A run reads the configuration and the documents of an input directory, compiles
them, and writes the manifest into an output directory. The output directory is
emptied first, so a run that fails leaves nothing behind that an earlier one
made.

## Main definitions

* `Directories`: Where a run reads and writes.
* `RunError`: Why a run fails.
* `Outcome`: What a run did.
* `run`: A run.
-/

namespace Phrasebook

/-- Where a run reads and writes. -/
structure Directories where
  input : String
  output : String
  deriving DecidableEq

/-- The directories of a run for which none are given. -/
def Directories.default : Directories := ⟨"i18n", "build/generated/i18n"⟩

/-- Why a run fails. -/
inductive RunError where
  | config (cause : ConfigError)
  | document (cause : LoadError)
  /-- A directory of the run cannot be prepared. -/
  | directory (path : String)
  | compile (cause : Defect) (location : Option Location)
  /-- The file of the manifest cannot be written. -/
  | manifest (path : String)

/-- The words for a failed compilation. -/
def RunError.compileMessage (cause : Defect) (location : Option Location) : String :=
  Location.lead location ++ cause.message

/-- What a run did. -/
inductive Outcome where
  /-- There was no configuration, and the default one was written at a path. -/
  | bootstrapped (path : String)
  | generated (files : List String) (messages : Nat)

/-- The documents of a run. -/
structure Sources where
  base : Document
  others : List Document

namespace Sources

/-- The editions of the documents other than the default. -/
def editions (s : Sources) : List Edition := s.others.map (fun d => ⟨d.locale, d.messages⟩)

/-- Where a defect stands: in the document of the locale that it names, or in the
    default one. -/
def locate? (s : Sources) (defect : Defect) : Option Location := do
  let (locale?, key) ← defect.context
  match locale? with
  | some locale =>
    let document ← s.others.find? (fun d => d.locale = locale)
    document.locate? key
  | none => s.base.locate? key

/-- The catalogue of the documents. -/
def compile (s : Sources) (config : Config) : Except RunError Catalogue :=
  match Phrasebook.compile config s.base.messages s.editions with
  | .ok catalogue => .ok catalogue
  | .error defect => .error (.compile defect (s.locate? defect))

end Sources

section

variable {m : Type → Type} [Monad m] [FileAccess m]

/-- Empty the output directory, or make it. -/
def resetOutput (output : String) : ExceptT RunError m Unit := do
  if ← FileAccess.isPresent output then
    if !(← FileAccess.removeDirectory output) then throw (.directory output)
  if !(← FileAccess.makeDirectory output) then throw (.directory output)

/-- Make the input directory if nothing is at its path. -/
def ensureInput (input : String) : ExceptT RunError m Unit := do
  if !(← FileAccess.isPresent input) then
    if !(← FileAccess.makeDirectory input) then throw (.directory input)
  if !(← FileAccess.isDirectory input) then throw (.directory input)

/-- Load the documents of all languages, the default one first. -/
def loadSources (input : String) (config : Config) : ExceptT LoadError m Sources := do
  let base ← Document.load input config.defaultLanguage
  let others ← config.secondaryLanguages.mapM (Document.load input)
  return ⟨base, others⟩

/-- A run. -/
def run (directories : Directories) : ExceptT RunError m Outcome := do
  resetOutput directories.output
  ensureInput directories.input
  match ← (Config.load directories.input).adapt RunError.config with
  | .bootstrapped path => return .bootstrapped path
  | .loaded config =>
    let sources ← (loadSources directories.input config).adapt RunError.document
    let catalogue ← ExceptT.mk (pure (sources.compile config))
    let manifest := Manifest.ofCatalogue config catalogue
    let files ← (manifest.write directories.output).adapt RunError.manifest
    return .generated files catalogue.size

end

end Phrasebook
