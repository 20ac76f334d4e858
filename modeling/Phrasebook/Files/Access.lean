import Phrasebook.Files.Path

/-!
# Access to Files

The few things that a run does with files. Where an action can fail, the answer
tells whether it was done; why it failed is not asked.

The interface is independent of what stands behind it: the files of a machine, or
a `FileTree` whose changes can be reasoned about.

## Main definitions

* `FileAccess`: The actions on files.
* `FileAccess.readText?`: The text of a file.
-/

namespace Phrasebook

/-- Actions on the files below a working directory. -/
class FileAccess (m : Type → Type) where
  /-- Whether there is a file or a directory at a path. -/
  isPresent : String → m Bool
  /-- Whether there is a file at a path. -/
  isFile : String → m Bool
  /-- Whether there is a directory at a path. -/
  isDirectory : String → m Bool
  /-- The content of a file. -/
  readBytes? : String → m (Option ByteArray)
  /-- Write a file, in place of one that is there. -/
  writeBytes : String → ByteArray → m Bool
  /-- Make a directory and those around it, as far as they are missing. -/
  makeDirectory : String → m Bool
  /-- Remove a directory with all that is in it. -/
  removeDirectory : String → m Bool

/-- Files can also be accessed by a computation that may fail for other causes. -/
instance {ε : Type} {m : Type → Type} [Monad m] [FileAccess m] : FileAccess (ExceptT ε m) where
  isPresent path := ExceptT.lift (FileAccess.isPresent path)
  isFile path := ExceptT.lift (FileAccess.isFile path)
  isDirectory path := ExceptT.lift (FileAccess.isDirectory path)
  readBytes? path := ExceptT.lift (FileAccess.readBytes? path)
  writeBytes path content := ExceptT.lift (FileAccess.writeBytes path content)
  makeDirectory path := ExceptT.lift (FileAccess.makeDirectory path)
  removeDirectory path := ExceptT.lift (FileAccess.removeDirectory path)

namespace FileAccess

variable {m : Type → Type} [Monad m] [FileAccess m]

/-- The text of a file; bytes that are not UTF-8 cannot be read. -/
def readText? (path : String) : m (Option String) := do
  let content ← readBytes? path
  return content.bind String.fromUTF8?

/-- Write a text to a file. -/
def writeText (path text : String) : m Bool := writeBytes path text.toUTF8

end FileAccess

end Phrasebook
