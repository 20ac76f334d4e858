import Phrasebook.Config.Printer
import Phrasebook.Config.Reader
import Phrasebook.Config.Validation
import Phrasebook.Files.Access

/-!
# Loading Configurations

The configuration of a project is a file of its input directory. Where nothing
stands at its path, the default configuration is written there, to be edited
before the next run.

## Main definitions

* `ConfigError`: Why there is no configuration.
* `ConfigSource`: A configuration, or the path of one that was just written.
* `Config.load`: The configuration of an input directory.
-/

namespace Phrasebook

/-- Why there is no configuration. -/
inductive ConfigError where
  | invalid (problems : List Problem)
  | inaccessible (path : String)
  | notJson (path : String) (cause : Json.Error)

namespace ConfigError

/-- The line of a message that tells a problem. -/
def problemLine (p : Problem) : String := "  - " ++ p.path ++ ": " ++ p.message

/-- The words for problems. -/
def problemsMessage (problems : List Problem) : String :=
  "Invalid configuration (" ++ toString problems.length ++ " problem(s)):\n" ++
    String.intercalate "\n" (problems.map problemLine)

/-- The words for a configuration that is no JSON for this program. -/
def notJsonMessage (path : String) (cause : Json.Error) : String :=
  "Configuration " ++ path ++ " is not valid JSON for this compiler: " ++ cause.message

end ConfigError

/-- Where the configuration of a run comes from. -/
inductive ConfigSource where
  | loaded (config : Config)
  | bootstrapped (path : String)

namespace Config

/-- The name of the file of a configuration. -/
def fileName : String := "config.json"

/-- The valid configuration that a text writes. -/
def check (path text : String) : Except ConfigError Config :=
  match parse text with
  | .error cause => .error (.notJson path cause)
  | .ok config => if config.Valid then .ok config else .error (.invalid config.problems)

variable {m : Type → Type} [Monad m] [FileAccess m]

/-- The configuration of an input directory, or the path at which the default one
    was written. -/
def load (input : String) : ExceptT ConfigError m ConfigSource := do
  let path := Path.join input fileName
  if ← FileAccess.isPresent path then
    match ← FileAccess.readText? path with
    | none => throw (.inaccessible path)
    | some text =>
      match check path text with
      | .error e => throw e
      | .ok config => return .loaded config
  else if ← FileAccess.writeText path default.print then
    return .bootstrapped path
  else
    throw (.inaccessible path)

end Config

end Phrasebook
