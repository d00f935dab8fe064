/-
  Tokens of a settings text.

  Settings are written in YAML without anchors, tags and
  block scalars.  A text is first cut into tokens.  Among
  them are some that no character stands for: indentation
  opens and closes sequences and mappings.

  Key definitions include:
    * `Yaml.Token`
    * `Yaml.Mark`
    * `Yaml.isBreak`
    * `Yaml.isGap`
    * `Yaml.normalize?`
-/

------------------------------------------------------------
-- Tokens
------------------------------------------------------------

namespace Carnatic

namespace Yaml

/- The pieces of a text. The first two kinds are directives.
A scalar is plain when it stands without quotation marks. -/
inductive Token
| version (major minor : Nat)
| tagHandle (handle : String)
| documentStart
| documentEnd
| blockSequenceStart
| blockMappingStart
| blockEnd
| flowSequenceStart
| flowSequenceEnd
| flowMappingStart
| flowMappingEnd
| entry
| separator
| key
| value
| scalar (text : String) (plain : Bool)
deriving DecidableEq, Repr, Inhabited

------------------------------------------------------------
-- Characters
------------------------------------------------------------

/- A character that ends a line, once line ends have been
made equal. -/
def isBreak (c : Char) : Bool :=
  c = '\n' || c = '\u2028' || c = '\u2029'

/- A space or a tab. -/
def isSpace (c : Char) : Bool :=
  c = ' ' || c = '\t'

/- A character between words: a space, a tab, a line end. -/
def isGap (c : Char) : Bool :=
  isSpace c || isBreak c

/- A text ends here or goes on with a gap. -/
def atGap : List Char → Bool
| [] => true
| c :: _ => isGap c

/- A line starts with three given characters that nothing
but a gap follows. -/
def atTriple
    (c : Char)
    (column : Nat)
    (text : List Char) : Bool :=
  column = 0 && text.take 3 = [c, c, c] && atGap (text.drop 3)

/- A line that starts or ends a document. -/
def atDocumentLine
    (column : Nat)
    (text : List Char) : Bool :=
  atTriple '-' column text || atTriple '.' column text

/- The mark that may stand in front of a line. It is no blank,
but a character like any other where it stands elsewhere. -/
def byteOrderMark : Char :=
  '\uFEFF'

/- A character that a text may hold. -/
def isAllowed (c : Char) : Bool :=
  let n := c.toNat
  n = 0x09 || n = 0x0A || n = 0x0D ||
    (0x20 ≤ n && n ≤ 0x7E) || n = 0x85 ||
    (0xA0 ≤ n && n ≤ 0xFFFD) || 0x10000 ≤ n

/- Write every line end as a single line feed: a carriage
return, alone or before a line feed, and the next line
control. -/
def normalizeBreaks : List Char → List Char
| [] => []
| '\r' :: '\n' :: rest => '\n' :: normalizeBreaks rest
| c :: rest =>
    (if c = '\r' || c = '\u0085' then '\n' else c) ::
      normalizeBreaks rest

/- The characters of a text with equal line ends, if all are
allowed. -/
def normalize? (text : String) : Option (List Char) :=
  if text.toList.all isAllowed then
    some (normalizeBreaks text.toList)
  else
    none

------------------------------------------------------------
-- Marks
------------------------------------------------------------

/- A place in a text: how many bytes of UTF-8, how many lines,
and how many characters of its line stand before it. -/
structure Mark where
  bytes : Nat
  line : Nat
  column : Nat
deriving DecidableEq, Repr, Inhabited

namespace Mark

/- The start of a text. -/
def origin : Mark :=
  ⟨0, 0, 0⟩

/- The place behind one more character. -/
def advance (mark : Mark) (c : Char) : Mark :=
  if isBreak c then
    ⟨mark.bytes + c.utf8Size, mark.line + 1, 0⟩
  else
    ⟨mark.bytes + c.utf8Size, mark.line, mark.column + 1⟩

/- The place behind some more characters. -/
def after (mark : Mark) (characters : List Char) : Mark :=
  characters.foldl advance mark

end Mark

end Yaml

end Carnatic
