import Carnatic.Position
import Carnatic.Text.Quoted

/-
  Tokens of the notation.

  A token is one word of a song with its class and the place
  of its first character.  The class of a word depends on the
  word alone.

  Key definitions include:
    * `TokenKind`
    * `TokenKind.ofWord?`
    * `Token`
    * `Token.isContinuation`
    * `Token.render`
-/

------------------------------------------------------------
-- Token Kinds
------------------------------------------------------------

namespace Carnatic

/- The classes of words. -/
inductive TokenKind
| listStart
| listEnd
| svaraName
| gamakaName
deriving DecidableEq, Repr, Inhabited

/- The word that holds or repeats the svara before it. -/
def continuation : String :=
  ","

namespace TokenKind

/-
  The class of a word: a brace, a svara name (the
  continuation or a word that leads with an ASCII letter), or
  a gamaka name (a word that leads with a colon).
-/
def ofWord? (word : String) : Option TokenKind :=
  if word = "\x7b" then
    some .listStart
  else if word = "\x7d" then
    some .listEnd
  else if word = continuation then
    some .svaraName
  else
    match word.toList with
    | [] => none
    | c :: _ =>
        if c.isAlpha then some .svaraName
        else if c = ':' then some .gamakaName
        else none

/- A class as error texts name it. -/
def describe : TokenKind → String
| .listStart => "'\x7b'"
| .listEnd => "'\x7d'"
| .svaraName => "svara name"
| .gamakaName => "gamaka name"

/- A class as token listings name it. -/
def label : TokenKind → String
| .listStart => "ListStart"
| .listEnd => "ListEnd"
| .svaraName => "PitchName"
| .gamakaName => "OrnamentName"

end TokenKind

------------------------------------------------------------
-- Tokens
------------------------------------------------------------

/- A word with its class and the place where it starts. -/
structure Token where
  kind : TokenKind
  word : String
  position : Position
deriving DecidableEq, Repr, Inhabited

namespace Token

/- The word `,` in the place of a svara name. -/
def isContinuation (token : Token) : Bool :=
  token.kind = .svaraName && token.word = continuation

/- The line that a token listing shows for a token. -/
def render (token : Token) : String :=
  token.kind.label ++ "(" ++ Text.quote token.word ++
    ", line=" ++ toString token.position.line ++
    ", col=" ++ toString token.position.column ++ ")"

end Token

end Carnatic
