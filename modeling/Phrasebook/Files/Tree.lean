import Phrasebook.Dict
import Phrasebook.Files.Access

/-!
# File Trees

The files and directories below a working directory as a value. A place in a tree
is the list of names that leads to it; a path leads to a place through `.` and
`..`, and only through directories that are there. A path that goes up from the
working directory stays there, and an absolute path leads nowhere. So does a path
that is too long, or one with a name that is too long.

## Main definitions

* `FileTree`: A file or a directory.
* `FileTree.get?`, `FileTree.put`, `FileTree.drop`: What is at a place.
* `FileTree.locate?`: The place that a path leads to.
* `FileTree.listing`: All places with their contents.

## Theorems

* `FileTree.get?_nil`: A tree is at its own empty place.
-/

namespace Phrasebook

/-- A file with its content, or a directory with its members by ascending
    name. -/
inductive FileTree where
  | file (content : ByteArray)
  | directory (members : List (String × FileTree))

namespace FileTree

/-- The directory without members. -/
def empty : FileTree := directory []

instance : Inhabited FileTree := ⟨empty⟩

/-- Whether a tree is a directory. -/
def isDirectoryNode : FileTree → Bool
  | file _ => false
  | directory _ => true

/-- The members of a directory; a file has none. -/
def members : FileTree → List (String × FileTree)
  | file _ => []
  | directory members => members

/-- What is at a place. -/
def get? : FileTree → List String → Option FileTree
  | tree, [] => some tree
  | tree, name :: place => (tree.members.lookup name).bind (fun member => member.get? place)

/-- Whether there is a directory at a place. -/
def hasDirectory (tree : FileTree) (place : List String) : Bool :=
  (tree.get? place).any isDirectoryNode

/-- The tree with another one put at a place. Directories that are missing on
    the way are made. -/
def put : FileTree → (place : List String) → FileTree → FileTree
  | _, [], new => new
  | tree, name :: place, new =>
    let member := (tree.members.lookup name).getD empty
    directory (Assoc.insert name (member.put place new) tree.members)

/-- The tree without what is at a place. -/
def drop : FileTree → (place : List String) → FileTree
  | tree, [] => tree
  | tree, [name] => directory (Assoc.erase name tree.members)
  | tree, name :: place =>
    match tree.members.lookup name with
    | none => tree
    | some member => directory (Assoc.insert name (member.drop place) tree.members)

/-- The place that components lead to from the place `here`. All but the last
    have to lead through directories; the last may be missing, but must be short
    enough to be a name. -/
def walk? (tree : FileTree) : (here : List String) → List String → Option (List String)
  | here, [] => some here
  | here, name :: names =>
    if !tree.hasDirectory here then none
    else if name = "." then walk? tree here names
    else if name = ".." then walk? tree here.dropLast names
    else if Path.isShort name then walk? tree (here ++ [name]) names
    else none

/-- The place that a path leads to. -/
def locate? (tree : FileTree) (path : String) : Option (List String) :=
  if Path.isLocal path then tree.walk? [] (Path.components path) else none

/-- What a path leads to. -/
def find? (tree : FileTree) (path : String) : Option FileTree :=
  (tree.locate? path).bind tree.get?

/-- The content of the file that a path leads to. -/
def content? (tree : FileTree) (path : String) : Option ByteArray :=
  match tree.find? path with
  | some (file content) => some content
  | _ => none

/-- Write a file. The answer is whether there is a place for a file, and the tree
    behind it. -/
def writeFile (tree : FileTree) (path : String) (content : ByteArray) : Bool × FileTree :=
  match tree.locate? path with
  | none => (false, tree)
  | some place =>
    if tree.hasDirectory place then (false, tree) else (true, tree.put place (file content))

/-- Make the directories that components lead through from the place `here`, as
    far as they are missing. Those in front of a name that is too long, or of a file,
    stay. -/
def makeFrom : (here : List String) → List String → FileTree → Bool × FileTree
  | _, [], tree => (true, tree)
  | here, name :: names, tree =>
    if name = "." then makeFrom here names tree
    else if name = ".." then makeFrom here.dropLast names tree
    else if !Path.isShort name then (false, tree)
    else
      let place := here ++ [name]
      match tree.get? place with
      | none => makeFrom place names (tree.put place empty)
      | some (directory _) => makeFrom place names tree
      | some (file _) => (false, tree)

/-- Make a directory and those around it. Nothing has to be made for the empty
    path. Of a path that ends in `.` only the directories around it are made. -/
def makeDirectories (tree : FileTree) (path : String) : Bool × FileTree :=
  if path.isEmpty then (true, tree)
  else if !Path.isLocal path then (false, tree)
  else if Path.endsInDot path then
    let (done, tree) := makeFrom [] (Path.parentNames path) tree
    (done && (tree.find? path).any isDirectoryNode, tree)
  else makeFrom [] (Path.names path) tree

/-- Remove a directory with all that is in it. A directory that is named by `.`
    is emptied, but cannot be removed. A path that went through a member of the
    directory, as `a/b/..` does, leads nowhere once the directory is empty, and
    nothing is left to remove. -/
def removeDirectories (tree : FileTree) (path : String) : Bool × FileTree :=
  match tree.locate? path with
  | none => (false, tree)
  | some place =>
    let emptied := tree.put place empty
    if !tree.hasDirectory place then (false, tree)
    else if (emptied.locate? path).isNone then (true, emptied)
    else if Path.endsInName path then (true, tree.drop place)
    else (false, emptied)

/-- Remove a file, or a directory with all that is in it. -/
def remove (tree : FileTree) (path : String) : Bool × FileTree :=
  match tree.locate? path with
  | none => (false, tree)
  | some place =>
    match tree.get? place with
    | none => (false, tree)
    | some (directory _) => tree.removeDirectories path
    | some (file _) => (true, tree.drop place)

mutual

/-- The places below a tree at the path `above`: a directory right before what is
    in it, files with their contents. -/
def listingBelow (above : String) : FileTree → List (String × Option ByteArray)
  | file _ => []
  | directory members => listingOf above members
termination_by structural tree => tree

/-- The places of the members of the directory at the path `above`. -/
def listingOf (above : String) : List (String × FileTree) → List (String × Option ByteArray)
  | [] => []
  | (name, tree) :: members =>
    let path := Path.join above name
    let content := match tree with
      | file content => some content
      | directory _ => none
    (path, content) :: listingBelow path tree ++ listingOf above members
termination_by structural members => members

end

/-- All places below a working directory, by ascending name. -/
def listing (tree : FileTree) : List (String × Option ByteArray) := listingBelow "" tree

/-- The place without components is the whole tree. -/
theorem get?_nil {tree : FileTree} : tree.get? [] = some tree := by
  cases tree <;> rfl

end FileTree

/-- The files of a tree. -/
instance : FileAccess (StateM FileTree) where
  isPresent path := return ((← get).find? path).isSome
  isFile path := return ((← get).content? path).isSome
  isDirectory path := return ((← get).find? path).any FileTree.isDirectoryNode
  readBytes? path := return (← get).content? path
  writeBytes path content := modifyGet (fun tree => tree.writeFile path content)
  makeDirectory path := modifyGet (fun tree => tree.makeDirectories path)
  removeDirectory path := modifyGet (fun tree => tree.removeDirectories path)

end Phrasebook
