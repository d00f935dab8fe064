import Carnatic.Files

/-
  A tree of files held in memory.

  The tree lists its files and directories by their names
  from the root.  The working directory and those above it
  are always there.

  Key definitions include:
    * `FileTree`
    * `FileTree.pathFault?`
    * `FileTree.resolve`
    * `FileTree.readText`
    * `FileTree.makeDirectory`
    * `FileTree.target`
    * `FileTree.write`
    * `FileTree.access`
-/

------------------------------------------------------------
-- Trees
------------------------------------------------------------

namespace Carnatic

/- What stands at a place of a tree. -/
inductive FileEntry
| file (bytes : List UInt8)
| directory
deriving DecidableEq, Repr

/- Files and directories, each with the names that lead to it
from the root, and the names that lead to the working
directory. -/
structure FileTree where
  entries : List (List String × FileEntry)
  workingDirectory : List String
deriving DecidableEq, Repr

namespace FileTree

/- The tree of a working directory with nothing in it. -/
def empty (workingDirectory : List String) : FileTree where
  entries := []
  workingDirectory := workingDirectory

/- What stands at a place. On the way from the root to the
working directory there are only directories. -/
def entry?
    (tree : FileTree)
    (place : List String) : Option FileEntry :=
  if place.isPrefixOf tree.workingDirectory then
    some .directory
  else
    tree.entries.lookup place

/- Put an entry at a place, instead of what stood there. -/
def put
    (tree : FileTree)
    (place : List String)
    (entry : FileEntry) : FileTree :=
  { tree with
    entries := (place, entry) ::
      tree.entries.filter fun other => other.1 ≠ place }

------------------------------------------------------------
-- Paths
------------------------------------------------------------

/- Where a path starts: at the root if it leads with a slash,
and otherwise in the working directory. -/
def start
    (tree : FileTree)
    (path : String) : List String :=
  if path.startsWith "/" then [] else tree.workingDirectory

/- The names between the slashes of a path. -/
def names (path : String) : List String :=
  (path.splitOn "/").filter fun part => part ≠ ""

/-
  The components of a path. A slash at the end asks for a
  directory, as a dot behind it would.
-/
def components (path : String) : List String :=
  if path.endsWith "/" then names path ++ ["."]
  else names path

/- The most bytes that a name may have. -/
def nameLimit : Nat :=
  255

/- A path has fewer bytes than this. -/
def pathLimit : Nat :=
  4096

/- Why a path leads nowhere in any tree. A null character in
it comes first. -/
def pathFault? (path : String) : Option FileError :=
  if path.toList.contains '\x00' then some .nullInName
  else if path = "" then some .notFound
  else if pathLimit ≤ path.utf8ByteSize then
    some .nameTooLong
  else
    none

/-
  The place that components lead to from a directory. All but
  the last must be directories that exist; a dot stays and
  two dots go up. The names are followed in order, so that
  the first fault on the way counts.
-/
def follow
    (tree : FileTree) :
    List String → List String →
      Except FileError (List String)
| here, [] => .ok here
| here, name :: rest =>
    if name = "." then
      tree.follow here rest
    else if name = ".." then
      tree.follow here.dropLast rest
    else if nameLimit < name.utf8ByteSize then
      .error .nameTooLong
    else if rest.isEmpty then
      .ok (here ++ [name])
    else
      match tree.entry? (here ++ [name]) with
      | none => .error .notFound
      | some (.file _) => .error .notADirectory
      | some .directory => tree.follow (here ++ [name]) rest

/- The place that a path leads to. -/
def resolve
    (tree : FileTree)
    (path : String) : Except FileError (List String) :=
  match pathFault? path with
  | some error => .error error
  | none => tree.follow (tree.start path) (components path)

------------------------------------------------------------
-- Operations
------------------------------------------------------------

/- The bytes of a file. -/
def readBytes
    (tree : FileTree)
    (path : String) : Except FileError (List UInt8) :=
  match tree.resolve path with
  | .error error => .error error
  | .ok place =>
      match tree.entry? place with
      | none => .error .notFound
      | some .directory => .error .isADirectory
      | some (.file bytes) => .ok bytes

/- The text of a file. -/
def readText
    (tree : FileTree)
    (path : String) : Except FileError String :=
  match tree.readBytes path with
  | .error error => .error error
  | .ok bytes =>
      match String.fromUTF8? ⟨bytes.toArray⟩ with
      | some text => .ok text
      | none => .error .notText

/- A file or a directory stands at the end of a path. -/
def pathExists
    (tree : FileTree)
    (path : String) : Bool :=
  match tree.resolve path with
  | .error _ => false
  | .ok place => (tree.entry? place).isSome

/- A path leads to a directory. -/
def isDirectory
    (tree : FileTree)
    (path : String) : Bool :=
  match tree.resolve path with
  | .error _ => false
  | .ok place => tree.entry? place = some .directory

/- Make one directory where nothing stands yet. -/
def makeDirectory
    (path : String)
    (tree : FileTree) : Except FileError Unit × FileTree :=
  match tree.resolve path with
  | .error error => (.error error, tree)
  | .ok place =>
      if (tree.entry? place).isSome then
        (.error .alreadyExists, tree)
      else
        (.ok (), tree.put place .directory)

/-
  The place of a file to write. A path with a slash at the
  end asks for a directory, whatever its last name, once the
  names before have been followed.
-/
def target
    (tree : FileTree)
    (path : String) : Except FileError (List String) :=
  match pathFault? path with
  | some error => .error error
  | none =>
      if path.endsWith "/" then
        match tree.follow (tree.start path)
            ((names path).dropLast ++ ["."]) with
        | .error error => .error error
        | .ok _ => .error .isADirectory
      else
        tree.follow (tree.start path) (names path)

/- Write a file whose directory exists, in place of a file
that stood there. -/
def write
    (path : String)
    (bytes : List UInt8)
    (tree : FileTree) : Except FileError Unit × FileTree :=
  match tree.target path with
  | .error error => (.error error, tree)
  | .ok place =>
      if tree.entry? place = some .directory then
        (.error .isADirectory, tree)
      else
        (.ok (), tree.put place (.file bytes))

------------------------------------------------------------
-- Access
------------------------------------------------------------

/- A tree as the files that a program works on. -/
def access : FileAccess (StateM FileTree) where
  readText path := do return (← get).readText path
  pathExists path := do return (← get).pathExists path
  isDirectory path := do return (← get).isDirectory path
  makeDirectory path := makeDirectory path
  write path bytes := write path bytes

end FileTree

end Carnatic
