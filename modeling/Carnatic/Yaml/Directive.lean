import Carnatic.Decimal.Reading
import Carnatic.Yaml.Token

/-
  Directives of a settings text.

  A line that starts with a percent sign, before the document
  does, is a directive.  It gives the version of YAML that
  the text is written in, or a short handle for tags.  The
  tags that a handle stands for are of no account, but must
  be well written.

  Key definitions include:
    * `Yaml.version?`
    * `Yaml.tagHandle?`
    * `Yaml.directive?`
-/

------------------------------------------------------------
-- Words
------------------------------------------------------------

namespace Carnatic

namespace Yaml

/- A character of the words in a directive. -/
def isWordCharacter (c : Char) : Bool :=
  c.isAlphanum || c = '-' || c = '_'

/- The text behind the spaces and tabs that it starts
with. -/
def dropSpaces (text : List Char) : List Char :=
  text.dropWhile isSpace

------------------------------------------------------------
-- Versions
------------------------------------------------------------

/- The most digits that a part of a version may have. -/
def versionDigits : Nat :=
  9

/- A part of a version, and the text behind it. -/
def versionPart?
    (text : List Char) : Option (Nat × List Char) :=
  let digits := text.takeWhile Char.isDigit
  if versionDigits < digits.length then none
  else
    (Decimal.digits? 10 digits).map fun n =>
      (n, text.drop digits.length)

/- A version, two numbers with a point between them, and the
text behind it. -/
def version? (text : List Char) : Option (Token × List Char) :=
  match versionPart? text with
  | some (major, '.' :: rest) =>
      (versionPart? rest).map fun (minor, rest) =>
        (.version major minor, rest)
  | _ => none

------------------------------------------------------------
-- Tag Handles
------------------------------------------------------------

/- A handle, a word between exclamation marks or one such
mark alone, and the text behind it. -/
def handle? : List Char → Option (String × List Char)
| '!' :: text =>
    let word := text.takeWhile isWordCharacter
    match text.drop word.length with
    | '!' :: rest =>
        some (String.ofList ('!' :: word ++ ['!']), rest)
    | rest => if word.isEmpty then some ("!", rest) else none
| _ => none

/- How many bytes the character has in UTF-8 that a byte
starts. -/
def leadWidth? (byte : Nat) : Option Nat :=
  if byte < 0x80 then some 1
  else if byte < 0xC0 then none
  else if byte < 0xE0 then some 2
  else if byte < 0xF0 then some 3
  else if byte < 0xF8 then some 4
  else none

/- A byte written as a percent sign and two digits of base
sixteen, and the text behind it. -/
def percentByte? : List Char → Option (Nat × List Char)
| '%' :: high :: low :: rest =>
    (Decimal.digits? 16 [high, low]).map fun byte =>
      (byte, rest)
| _ => none

/- The text behind some written bytes that go on with a
character. -/
def trailingBytes? : Nat → List Char → Option (List Char)
| 0, text => some text
| count + 1, text =>
    match percentByte? text with
    | some (byte, rest) =>
        if 0x80 ≤ byte && byte < 0xC0 then
          trailingBytes? count rest
        else none
    | none => none

/- The text behind a character written as bytes. -/
def writtenCharacter?
    (text : List Char) : Option (List Char) :=
  match percentByte? text with
  | none => none
  | some (byte, rest) =>
      match leadWidth? byte with
      | none => none
      | some width => trailingBytes? (width - 1) rest

/- A character that a tag may hold as it is. -/
def isTagCharacter (c : Char) : Bool :=
  isWordCharacter c ||
    [';', '/', '?', ':', '@', '&', '=', '+', '$', '.', '!',
      '~', '*', '\'', '(', ')', ',', '[', ']'].contains c

/- The text behind the front of a tag, in a number of steps
at most. -/
def tagRun? : Nat → List Char → Option (List Char)
| 0, text => some text
| _, [] => some []
| tries + 1, c :: rest =>
    if c = '%' then
      match writtenCharacter? (c :: rest) with
      | some behind => tagRun? tries behind
      | none => none
    else if isTagCharacter c then
      tagRun? tries rest
    else
      some (c :: rest)

/- A handle with the front of the tags that it stands for,
which is not empty, and the text behind them. -/
def tagHandle?
    (text : List Char) : Option (Token × List Char) :=
  match handle? text with
  | none => none
  | some (handle, rest) =>
      if !rest.head?.any isSpace then none
      else
        let start := dropSpaces rest
        match tagRun? start.length start with
        | none => none
        | some behind =>
            if behind.length < start.length &&
                atGap behind then
              some (.tagHandle handle, behind)
            else none

------------------------------------------------------------
-- Directives
------------------------------------------------------------

/- The text behind the end of a line that holds a comment at
most. -/
def lineEnd? (text : List Char) : Option (List Char) :=
  let rest := dropSpaces text
  let rest :=
    if rest.head? = some '#' then
      rest.dropWhile fun c => !isBreak c
    else rest
  match rest with
  | [] => some []
  | c :: behind => if isBreak c then some behind else none

/- The directive that a text starts with behind its percent
sign, and the text behind its line. -/
def directive?
    (text : List Char) : Option (Token × List Char) :=
  let name := text.takeWhile isWordCharacter
  let rest := text.drop name.length
  let content? :=
    if !atGap rest then none
    else if name = "YAML".toList then
      version? (dropSpaces rest)
    else if name = "TAG".toList then
      tagHandle? (dropSpaces rest)
    else none
  match content? with
  | none => none
  | some (token, rest) =>
      (lineEnd? rest).map fun behind => (token, behind)

end Yaml

end Carnatic
