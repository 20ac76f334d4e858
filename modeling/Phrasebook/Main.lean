import Phrasebook.CommandLine

/-!
# Main Program

The command line on the files of the machine. What cannot be read or written
counts as a failed action.
-/

namespace Phrasebook

/-- Whether an action was done without an error. -/
def succeeds {α : Type} (action : IO α) : IO Bool := do
  try
    discard action
    return true
  catch _ => return false

/-- Whether there is a directory at a path. -/
def isDirectoryPath (path : String) : IO Bool := do
  try (← IO.FS.realPath path).isDir
  catch _ => return false

/-- Make a directory and those around it. Of a path that ends in `.` only the
    directories around it are made. -/
def makePath (path : String) : IO Bool := do
  if path.isEmpty then return true
  else if Path.endsInDot path then
    discard (succeeds (IO.FS.createDirAll (Path.parent path)))
    isDirectoryPath path
  else succeeds (IO.FS.createDirAll path)

/-- Remove a directory with all that is in it. It is done if the path leads nowhere
    any more. -/
def removePath (path : String) : IO Bool := do
  discard (succeeds (IO.FS.removeDirAll path))
  return !(← succeeds (IO.FS.realPath path))

/-- The files of the machine. -/
instance : FileAccess IO where
  isPresent path := succeeds (IO.FS.realPath path)
  isFile path := do return (← succeeds (IO.FS.realPath path)) && !(← isDirectoryPath path)
  isDirectory path := isDirectoryPath path
  readBytes? path := do
    try return some (← IO.FS.readBinFile path)
    catch _ => return none
  writeBytes path content := succeeds (IO.FS.writeBinFile path content)
  makeDirectory path := makePath path
  removeDirectory path := removePath path

end Phrasebook

/-- Carry out the command of the words of a call. -/
def main (words : List String) : IO UInt32 := do
  let (code, output) ← Phrasebook.Command.execute (Phrasebook.Command.ofWords words)
  IO.print output
  return UInt32.ofNat code
