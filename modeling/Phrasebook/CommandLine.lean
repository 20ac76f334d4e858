import Phrasebook.Run

/-!
# Command Line

The words after the name of the program. They are looked at from the left, and
the first that asks for the help text or the version, or that cannot be
understood, decides; only when all are understood a run is made. So nothing is
touched by a call that is misused.

## Main definitions

* `Options`: What was asked for.
* `Command`: What a call amounts to.
* `Command.ofWords`: The command of the words of a call.
* `Command.execute`: Exit code and output of a command.
-/

namespace Phrasebook

/-- What was asked for by the words that were looked at. -/
structure Options where
  input : Option String
  output : Option String
  /-- How much is logged. -/
  verbosity : Nat
  deriving DecidableEq

/-- What a call of the program amounts to. -/
inductive Command where
  | run (options : Options)
  | help
  | version
  | misuse
  deriving DecidableEq

namespace Options

/-- The options of a call without words. -/
def none : Options := ⟨.none, .none, 0⟩

/-- The directories to read and write. -/
def directories (o : Options) : Directories where
  input := o.input.getD Directories.default.input
  output := o.output.getD Directories.default.output

/-- Set the input directory. It has to have a name, and may be set once. -/
def setInput? (o : Options) (value : String) : Option Options :=
  if o.input.isSome || value.isEmpty then .none else some { o with input := some value }

/-- Set the output directory. It has to have a name, and may be set once. -/
def setOutput? (o : Options) (value : String) : Option Options :=
  if o.output.isSome || value.isEmpty then .none else some { o with output := some value }

/-- Log more. -/
def raise (o : Options) : Options := { o with verbosity := o.verbosity + 1 }

end Options

namespace Command

/-- Whether a word may be the value of the option in front of it. -/
def isValue (word : String) : Bool := word.toList.head? != some '-' || word == "-"

/-- The options of letters behind one hyphen. -/
def ofLetters : Options → List Char → Except Command Options
  | o, [] => .ok o
  | o, letter :: letters =>
    if letter = 'v' then ofLetters o.raise letters
    else if letter = 'h' then .error .help
    else if letter = 'V' then .error .version
    else .error .misuse

/-- The name of an option behind two hyphens, and the value behind an equals
    sign. -/
def splitValue (word : List Char) : List Char × Option (List Char) :=
  match word.dropWhile (· ≠ '=') with
  | [] => (word, none)
  | _ :: value => (word.takeWhile (· ≠ '='), some value)

/-- An option that takes a value and is set by it. -/
def setter? (name : List Char) : Option (Options → String → Option Options) :=
  if name = ['i', 'n', 'p', 'u', 't'] then some Options.setInput?
  else if name = ['o', 'u', 't', 'p', 'u', 't'] then some Options.setOutput?
  else none

/-- The options after an option without value that is named by a word. -/
def ofName (o : Options) (name : List Char) : Except Command Options :=
  if name = ['v', 'e', 'r', 'b', 'o', 's', 'e'] then .ok o.raise
  else if name = ['h', 'e', 'l', 'p'] then .error .help
  else if name = ['v', 'e', 'r', 's', 'i', 'o', 'n'] then .error .version
  else .error .misuse

/-- A word of a call. -/
inductive Word where
  /-- The sign behind which no options stand. -/
  | separator
  /-- An option that takes a value, with the value if it stands in the word. -/
  | setting (set : Options → String → Option Options) (value : Option String)
  /-- Letters behind one hyphen. -/
  | letters (letters : List Char)
  /-- An option without value. -/
  | name (name : List Char)
  /-- No option. -/
  | other

/-- What a word of a call is. -/
def Word.ofString (word : String) : Word :=
  match word.toList with
  | ['-', '-'] => separator
  | '-' :: '-' :: long =>
    let (option, value) := splitValue long
    match setter? option, value with
    | some set, value => setting set (value.map String.ofList)
    | none, none => name option
    | none, some _ => other
  | '-' :: c :: cs => letters (c :: cs)
  | _ => other

/-- The command of words, after the words in front of them gave some options. -/
def ofWordsFrom : Options → List String → Command
  | o, [] => run o
  | o, word :: words =>
    match Word.ofString word with
    | .separator => if words = [] then run o else misuse
    | .letters letters =>
      match ofLetters o letters with
      | .ok o => ofWordsFrom o words
      | .error command => command
    | .name name =>
      match ofName o name with
      | .ok o => ofWordsFrom o words
      | .error command => command
    | .setting set (some value) =>
      match set o value with
      | some o => ofWordsFrom o words
      | none => misuse
    | .setting set none =>
      match words with
      | [] => misuse
      | value :: words =>
        if isValue value then
          match set o value with
          | some o => ofWordsFrom o words
          | none => misuse
        else misuse
    | .other => misuse

/-- The command of the words of a call. -/
def ofWords (words : List String) : Command := ofWordsFrom .none words

/-- The help text. -/
def helpText : String :=
  "Compile per-locale JSON messages into typed message definitions.\n\n" ++
  "Usage: i18n-msgc [OPTIONS]\n\n" ++
  "Options:\n" ++
  "      --input <DIR>   Directory holding config.json and one <locale>.json per language " ++
  "[default: i18n]\n" ++
  "      --output <DIR>  Directory receiving the generated artifacts; emptied on every run " ++
  "[default: build/generated/i18n]\n" ++
  "  -v, --verbose...    Increase log verbosity (-v debug, -vv trace)\n" ++
  "  -h, --help          Print help\n" ++
  "  -V, --version       Print version\n"

/-- The text that names the version. -/
def versionText : String := "i18n-msgc 0.1.0\n"

/-- The exit code of a command, and what it prints. -/
def execute {m : Type → Type} [Monad m] [FileAccess m] : Command → m (Nat × String)
  | run options => do
    match ← (Phrasebook.run options.directories).run with
    | .ok _ => return (0, "")
    | .error _ => return (1, "")
  | help => return (0, helpText)
  | version => return (0, versionText)
  | misuse => return (2, "")

end Command

end Phrasebook
