/-
  Files and directories.

  A program reaches files through a small interface, so that
  it runs on a disk as well as on a tree of files held in
  memory.

  Key definitions include:
    * `FileError`
    * `FileAccess`
-/

------------------------------------------------------------
-- File Errors
------------------------------------------------------------

namespace Carnatic

/- Why a file operation fails. -/
inductive FileError
| notFound
| alreadyExists
| notADirectory
| isADirectory
| nameTooLong
| nullInName
| notText
| other (description : String)
deriving DecidableEq, Repr

/- The text of a file error, as Linux words it. -/
def FileError.message : FileError → String
| .notFound => "No such file or directory (os error 2)"
| .alreadyExists => "File exists (os error 17)"
| .notADirectory => "Not a directory (os error 20)"
| .isADirectory => "Is a directory (os error 21)"
| .nameTooLong => "File name too long (os error 36)"
| .nullInName =>
    "file name contained an unexpected NUL byte"
| .notText => "stream did not contain valid UTF-8"
| .other description => description

------------------------------------------------------------
-- File Access
------------------------------------------------------------

/-
  The operations on files that the program needs. Paths are
  texts with slashes; a relative one starts from the working
  directory. Making a directory makes just one.
-/
structure FileAccess (m : Type → Type) where
  readText : String → m (Except FileError String)
  pathExists : String → m Bool
  isDirectory : String → m Bool
  makeDirectory : String → m (Except FileError Unit)
  write : String → List UInt8 → m (Except FileError Unit)

------------------------------------------------------------
-- Paths
------------------------------------------------------------

/-
  The components of a path, last one first. Repeated slashes
  add none, and neither do dots, except for one at the start.
-/
def pathComponents (path : String) : List String :=
  let parts := path.splitOn "/"
  let start := if parts.head? = some "." then ["."] else []
  let names :=
    parts.filter fun part => part ≠ "" && part ≠ "."
  (start ++ names).reverse

/- The path of some components, last one first, from the root
or from the working directory. -/
def pathOf
    (absolute : Bool)
    (components : List String) : String :=
  let path := "/".intercalate components.reverse
  if absolute then "/" ++ path else path

------------------------------------------------------------
-- Saving
------------------------------------------------------------

namespace FileAccess

variable {m : Type → Type} [Monad m]

/- A directory that could not be made is no fault where one
stands already. -/
def settle
    (files : FileAccess m)
    (path : String)
    (error : FileError) : m (Except FileError Unit) := do
  if ← files.isDirectory path then return .ok ()
  else return .error error

/-
  Make a directory unless it exists, and before it, where
  something on the way is missing, the directories that it
  lies in. The components come last one first.
-/
def makeDirectories
    (files : FileAccess m)
    (absolute : Bool) :
    List String → m (Except FileError Unit)
| [] => return .ok ()
| name :: outer => do
    let path := pathOf absolute (name :: outer)
    match ← files.makeDirectory path with
    | .ok () => return .ok ()
    | .error .notFound =>
        match ← files.makeDirectories absolute outer with
        | .error error => return .error error
        | .ok () =>
            match ← files.makeDirectory path with
            | .ok () => return .ok ()
            | .error error => files.settle path error
    | .error error => files.settle path error

/-
  Write a file, making the directories on the way to it. The
  file itself is written last.
-/
def save
    (files : FileAccess m)
    (path : String)
    (bytes : List UInt8) : m (Except FileError Unit) := do
  let made ← files.makeDirectories (path.startsWith "/")
    (pathComponents path).tail
  match made with
  | .error error => return .error error
  | .ok () => files.write path bytes

end FileAccess

end Carnatic
