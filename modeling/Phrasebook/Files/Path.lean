/-!
# Paths

A path is a text with components between slashes. It is kept as it was given,
because it is shown as it was given; only access to a file looks at the
components.

## Main definitions

* `Path.join`: A name below a path.
* `Path.names`, `Path.components`: What stands between the slashes of a path.
* `Path.parentNames`: The names that lead to the directory around a path.
* `Path.isLocal`: A path can lead to a place below the working directory.
* `Path.isShort`: A name is not too long for a file.
-/

namespace Phrasebook

namespace Path

/-- Whether a path starts with a slash. -/
def isAbsolute (path : String) : Bool := path.toList.head? == some '/'

/-- The path of `name` below `base`. A slash is put between them unless `base` is
    empty or ends with one; an absolute `name` stands alone. -/
def join (base name : String) : String :=
  if isAbsolute name then name
  else if base.isEmpty || base.toList.getLast? == some '/' then base ++ name
  else base ++ "/" ++ name

/-- The names between the slashes of a path. Slashes that follow one another
    count once. -/
def names (path : String) : List String :=
  ((path.toList.splitOn '/').map String.ofList).filter (fun name => !name.isEmpty)

/-- The components of a path that is looked up. A slash at the end stands for the
    component `.`, as what it follows has to be a directory. -/
def components (path : String) : List String :=
  if path.toList.getLast? == some '/' then names path ++ ["."] else names path

/-- Whether the last name of a path is `.`, which names a directory that has to be
    there already. -/
def endsInDot (path : String) : Bool := (names path).getLast? == some "."

/-- Whether the last name of a path is the name of what it leads to, and neither `.`
    nor `..`. -/
def endsInName (path : String) : Bool :=
  (names path).getLast?.any (fun name => name != "." && name != "..")

/-- The names in front of the last one, of which a `.` at the end is no part. -/
def parentNames (path : String) : List String :=
  ((names path).reverse.dropWhile (· == ".")).tail.reverse

/-- The path in front of the last name. -/
def parent (path : String) : String :=
  (if isAbsolute path then "/" else "") ++ String.intercalate "/" (parentNames path)

/-- The most bytes that a path may have. -/
def maxSize : Nat := 4095

/-- The most bytes that a name may have. -/
def maxNameSize : Nat := 255

/-- Whether a path can lead to a place below the working directory: it is not
    empty and not too long, has no character that ends a path for the system, and
    does not start at the root of the machine. The dots and slashes of a path count,
    even where they lead nowhere. -/
def isLocal (path : String) : Bool :=
  !path.isEmpty && path.utf8ByteSize ≤ maxSize && !path.toList.contains '\x00' &&
    !isAbsolute path

/-- Whether a name is not too long for a file or a directory. -/
def isShort (name : String) : Bool := name.utf8ByteSize ≤ maxNameSize

end Path

end Phrasebook
