import Carnatic.CommandLine.Run
import Carnatic.Decimal.Reading

/-
  Arguments of the command line.

  A command may have two options before and behind its name:
  a settings file, and the note of the shruti.  An option
  takes the next argument as its value, or what stands behind
  an equals sign.  Of an option given on both sides of the
  command's name the one behind it counts.  The program starts
  with this reader; runs do not depend on how it reads.

  Key definitions include:
    * `CommandLine.usageText`
    * `CommandLine.Request.ofArguments`
-/

------------------------------------------------------------
-- Answers
------------------------------------------------------------

namespace Carnatic

namespace CommandLine

/- The name and version of the program. -/
def versionText : String :=
  "vaadya 0.1.0\n"

/- How the program is used. -/
def usageText : String :=
  unlines
    ["usage: vaadya [--config PATH] [--shruti N] COMMAND",
      "commands:",
      "  compile SOURCE OUTPUT  compile a song to MIDI",
      "  tokens SOURCE          print the tokens of a song",
      "  segments SOURCE        print the segments of a song"]

namespace Request

/- The program's version is asked for. -/
def showVersion : Request :=
  .answered versionText

/- Help is asked for. -/
def showHelp : Request :=
  .answered usageText

/- Arguments that ask for nothing the program does. -/
def misuse : Request :=
  .misused usageText

end Request

namespace Options

/- No options. -/
def none : Options :=
  ⟨Option.none, Option.none⟩

/- The options behind a command's name, and where there are
none, those before it. -/
def orElse (behind before : Options) : Options where
  settingsPath := behind.settingsPath <|> before.settingsPath
  shruti := behind.shruti <|> before.shruti

end Options

------------------------------------------------------------
-- Values
------------------------------------------------------------

/- The byte that an optional sign and digits write. -/
def byte? (text : String) : Option UInt8 :=
  let (negative, digits) := Decimal.takeSign text.toList
  match Decimal.digits? 10 digits with
  | none => none
  | some n =>
      if n < 256 ∧ (negative → n = 0) then
        some (UInt8.ofNat n)
      else
        none

/- An argument that leads with a dash, a single dash alone
excepted. -/
def isOption (argument : String) : Bool :=
  argument.startsWith "-" && argument ≠ "-"

/- Split an argument at its first equals sign. -/
def splitEquals (argument : String) : String × Option String :=
  let characters := argument.toList
  let name := characters.takeWhile fun c => c ≠ '='
  match characters.dropWhile fun c => c ≠ '=' with
  | [] => (argument, none)
  | _ :: value =>
      (String.ofList name, some (String.ofList value))

/- Set an option that has no value yet. -/
def setOption?
    (options : Options)
    (name value : String) : Option Options :=
  if name = "--config" then
    if options.settingsPath.isSome || value = "" then none
    else some { options with settingsPath := some value }
  else if name = "--shruti" then
    if options.shruti.isSome then none
    else
      (byte? value).map fun note =>
        { options with shruti := some note }
  else
    none

------------------------------------------------------------
-- Options
------------------------------------------------------------

/- What an argument that leads with a dash means. -/
inductive OptionStep
| proceed (options : Options) (rest : List String)
| showVersion
| showHelp
| misuse

/-
  Read the option at the front of the arguments. A value in
  the next argument has no dash in front. The version can be
  asked for only before a command's name.
-/
def readOption
    (beforeCommand : Bool)
    (options : Options)
    (argument : String)
    (rest : List String) : OptionStep :=
  let (name, value?) := splitEquals argument
  if name = "--config" || name = "--shruti" then
    match value?, rest with
    | some value, rest =>
        match setOption? options name value with
        | some options => .proceed options rest
        | none => .misuse
    | none, value :: rest =>
        if isOption value then .misuse
        else
          match setOption? options name value with
          | some options => .proceed options rest
          | none => .misuse
    | none, [] => .misuse
  else if argument = "--help" || argument.startsWith "-h" then
    .showHelp
  else if beforeCommand && (argument = "--version" ||
      argument.startsWith "-V") then
    .showVersion
  else
    .misuse

/- Reading an option that lets reading proceed leaves no more
arguments than stood behind it. -/
theorem length_of_readOption
    {beforeCommand : Bool}
    {options reached : Options}
    {argument : String}
    {rest behind : List String}
    (hRead :
      readOption beforeCommand options argument rest =
        .proceed reached behind) :
    behind.length ≤ rest.length := by
  unfold readOption at hRead
  split at hRead
  split at hRead
  · split at hRead
    · split at hRead
      · simp_all
      · simp at hRead
    · split at hRead
      · simp at hRead
      · split at hRead
        · simp only [OptionStep.proceed.injEq] at hRead
          simp [← hRead.2]
        · simp at hRead
    · simp at hRead
  · split at hRead
    · simp at hRead
    · split at hRead <;> simp at hRead

------------------------------------------------------------
-- Commands
------------------------------------------------------------

/- The commands by name, each with the number of paths that
it takes. -/
def commandNames : List (String × Nat) :=
  [("compile", 2), ("tokens", 1), ("segments", 1)]

/- The command of a name with its paths, none of them
empty. -/
def command?
    (name : String)
    (paths : List String) : Option Command :=
  if paths.contains "" then
    none
  else
    match name, paths with
    | "compile", [source, output] =>
        some (.compile source output)
    | "tokens", [source] => some (.tokens source)
    | "segments", [source] => some (.segments source)
    | _, _ => none

/- The request of a command whose options and paths have all
been read. -/
def conclude
    (options : Options)
    (name : String)
    (paths : List String) : Request :=
  match command? name paths with
  | some command => .perform options command
  | none => .misuse

/-
  Read the arguments behind a command's name: options, and up
  to some number of paths. Two dashes make paths of all
  arguments behind them.
-/
def readCommand
    (before : Options)
    (name : String)
    (limit : Nat)
    (options : Options)
    (paths : List String)
    (arguments : List String) : Request :=
  match arguments with
  | [] => conclude (options.orElse before) name paths
  | argument :: rest =>
      if argument = "--" then
        conclude (options.orElse before) name (paths ++ rest)
      else if isOption argument then
        match _hRead :
            readOption false options argument rest with
        | .proceed options behind =>
            readCommand before name limit options paths behind
        | .showVersion => .showVersion
        | .showHelp => .showHelp
        | .misuse => .misuse
      else if argument = "" || limit ≤ paths.length then
        .misuse
      else
        readCommand before name limit options
          (paths ++ [argument]) rest
termination_by arguments.length
decreasing_by
  · exact Nat.lt_succ_of_le (length_of_readOption _hRead)
  · exact Nat.lt_succ_self _

/- Help may be asked for in general or on one command by its
name. No command has others below it. -/
def readHelp : List String → Request
| [] => .showHelp
| [name] =>
    if name = "help" || (commandNames.lookup name).isSome then
      .showHelp
    else .misuse
| _ => .misuse

/- Read the arguments up to a command's name. -/
def readArguments
    (options : Options)
    (arguments : List String) : Request :=
  match arguments with
  | [] => .misuse
  | argument :: rest =>
      if argument = "--" then
        .misuse
      else if isOption argument then
        match _hRead :
            readOption true options argument rest with
        | .proceed options behind =>
            readArguments options behind
        | .showVersion => .showVersion
        | .showHelp => .showHelp
        | .misuse => .misuse
      else if argument = "help" then
        readHelp rest
      else
        match commandNames.lookup argument with
        | some limit =>
            readCommand options argument limit .none [] rest
        | none => .misuse
termination_by arguments.length
decreasing_by
  exact Nat.lt_succ_of_le (length_of_readOption _hRead)

/- What a list of arguments asks for. -/
def Request.ofArguments
    (arguments : List String) : Request :=
  readArguments Options.none arguments

end CommandLine

end Carnatic
