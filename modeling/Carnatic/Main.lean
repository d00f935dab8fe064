import Carnatic.CommandLine.Arguments
import Carnatic.Yaml.Settings

/-
  The program.

  Its files are those of the disk, and its settings are kept
  in the home directory.
-/

------------------------------------------------------------
-- Disk
------------------------------------------------------------

namespace Carnatic

/- The file error behind an error of the system. -/
def FileError.ofSystem : IO.Error → FileError
| .noFileOrDirectory _ _ _ => .notFound
| .alreadyExists _ _ _ => .alreadyExists
| .inappropriateType _ 21 _ => .isADirectory
| .invalidArgument _ 36 _ => .nameTooLong
| .inappropriateType _ _ _ => .notADirectory
| error => .other (toString error)

/- The answer of an action on the disk, or its error. -/
def FileAccess.attempt
    {α : Type}
    (action : IO α) : IO (Except FileError α) := do
  try
    return .ok (← action)
  catch error =>
    return .error (FileError.ofSystem error)

/- The files of the disk. -/
def FileAccess.disk : FileAccess IO where
  readText path := do
    match ← attempt (IO.FS.readBinFile path) with
    | .error error => return .error error
    | .ok bytes =>
        match String.fromUTF8? bytes with
        | some text => return .ok text
        | none => return .error .notText
  pathExists path := do
    match ← attempt (IO.FS.realPath path) with
    | .error _ => return false
    | .ok _ => return true
  isDirectory path := do
    match ← attempt (IO.FS.realPath path) with
    | .error _ => return false
    | .ok resolved => resolved.isDir
  makeDirectory path :=
    attempt (IO.FS.createDir path)
  write path bytes :=
    attempt (IO.FS.writeBinFile path ⟨bytes.toArray⟩)

end Carnatic

------------------------------------------------------------
-- Entry
------------------------------------------------------------

/- Run the program on the arguments it was started with. -/
def main (arguments : List String) : IO UInt32 := do
  let home? ← IO.getEnv "HOME"
  let outcome ← Carnatic.CommandLine.run
    Carnatic.FileAccess.disk Carnatic.Yaml.settingsReader home?
    (Carnatic.CommandLine.Request.ofArguments arguments)
  IO.print outcome.output
  IO.eprint outcome.errors
  return outcome.exitCode.toUInt32
