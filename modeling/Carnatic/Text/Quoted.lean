import Carnatic.Text.Unprintable

/-
  Text between quotation marks.

  A quoted text is the text itself between two double quotes.
  The quote and the backslash get a backslash, tab, line feed,
  carriage return and the null character have letter escapes,
  and any other unprintable character is written as its code
  point in hexadecimal.

  Key definitions include:
    * `Text.hexadecimal`
    * `Text.escape`
    * `Text.quote`
-/

------------------------------------------------------------
-- Escapes
------------------------------------------------------------

namespace Carnatic

namespace Text

/- The digits of a number in base sixteen, lower case. -/
def hexadecimal (n : Nat) : List Char :=
  Nat.toDigits 16 n

/- How one character is written inside a quoted text. -/
def escape (c : Char) : List Char :=
  if c = '"' then ['\\', '"']
  else if c = '\\' then ['\\', '\\']
  else if c = '\x00' then ['\\', '0']
  else if c = '\t' then ['\\', 't']
  else if c = '\n' then ['\\', 'n']
  else if c = '\r' then ['\\', 'r']
  else if isUnprintable c then
    ['\\', 'u', '\x7b'] ++ hexadecimal c.toNat ++ ['\x7d']
  else [c]

/- A text between double quotes, its characters escaped. -/
def quote (text : String) : String :=
  String.ofList
    ('"' :: text.toList.flatMap escape ++ ['"'])

end Text

end Carnatic
