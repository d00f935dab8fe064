import Carnatic.Decimal.Reading
import Carnatic.Yaml.Token

/-
  Texts of scalars.

  A scalar may go on over several lines.  A line end inside
  it counts as a space, and further empty lines as line ends.

  Key definitions include:
    * `Yaml.foldGap`
    * `Yaml.plainScalar?`
    * `Yaml.quotedScalar?`
-/

------------------------------------------------------------
-- Gaps
------------------------------------------------------------

namespace Carnatic

namespace Yaml

/- Split a text behind the gap that it starts with. -/
def spanGap (text : List Char) : List Char × List Char :=
  (text.takeWhile isGap, text.dropWhile isGap)

/- What line ends in a row stand for: the first one a space
when it stands alone and is a line feed. -/
def foldBreaks : List Char → List Char
| [] => []
| first :: others =>
    if first = '\n' then
      if others.isEmpty then [' '] else others
    else
      first :: others

/- What a gap inside a scalar stands for: itself within a
line, and otherwise its line ends. -/
def foldGap (gap : List Char) : List Char :=
  if gap.any isBreak then foldBreaks (gap.filter isBreak)
  else gap

------------------------------------------------------------
-- Plain Scalars
------------------------------------------------------------

/- The characters that part the items of flow collections. -/
def flowIndicators : List Char :=
  [',', '[', ']', '\x7b', '\x7d']

/-
  The front of a text that belongs to a plain scalar without
  a gap. A colon before a gap ends it, and so do indicators
  inside a flow collection, where a colon before an indicator
  is a fault.
-/
def plainRun?
    (inFlow : Bool) :
    List Char → Option (List Char × List Char)
| [] => some ([], [])
| c :: rest =>
    if isGap c then
      some ([], c :: rest)
    else if inFlow && c = ':' &&
        rest.head?.any fun next =>
          next = '?' || flowIndicators.contains next then
      none
    else if (c = ':' && atGap rest) ||
        (inFlow && flowIndicators.contains c) then
      some ([], c :: rest)
    else
      (plainRun? inFlow rest).map fun (run, behind) =>
        (c :: run, behind)

/- A tab stands in the indentation of a line after the first
one of a gap. -/
def tabIndents
    (indent : Nat) :
    Bool → Mark → List Char → Bool
| _, _, [] => false
| broken, mark, c :: rest =>
    (broken && c = '\t' && mark.column < indent) ||
      tabIndents indent (broken || isBreak c)
        (mark.advance c) rest

/- A scalar that has been read: its text, the text behind
it with its place, and whether a line ended behind it. -/
structure PlainScalar where
  text : List Char
  rest : List Char
  mark : Mark
  broken : Bool

/-
  Go on with a plain scalar of which some text has been read,
  and a gap behind it. It ends at a comment, at a document
  line, where no run follows, and outside flow collections
  where a line is not indented enough.
-/
def plainLoop
    (inFlow : Bool)
    (indent : Nat) :
    Nat → PlainScalar → List Char → Option PlainScalar
| 0, scalar, _ => some scalar
| tries + 1, scalar, gap =>
    if atDocumentLine scalar.mark.column scalar.rest ||
        scalar.rest.head? = some '#' then
      some scalar
    else
      match plainRun? inFlow scalar.rest with
      | none => none
      | some ([], _) => some scalar
      | some (run, behind) =>
          let ending := scalar.mark.after run
          let (space, rest) := spanGap behind
          let reached : PlainScalar :=
            { text := scalar.text ++ foldGap gap ++ run
              rest := rest
              mark := ending.after space
              broken := space.any isBreak }
          if tabIndents indent false ending space then
            none
          else if space.isEmpty ||
              (!inFlow && reached.mark.column < indent) then
            some reached
          else
            plainLoop inFlow indent tries reached space

/- The plain scalar that starts here, in a text of a size at
most. -/
def plainScalar?
    (size : Nat)
    (inFlow : Bool)
    (indent : Nat)
    (mark : Mark)
    (text : List Char) : Option PlainScalar :=
  plainLoop inFlow indent (size + 1)
    ⟨[], text, mark, false⟩ []

------------------------------------------------------------
-- Quoted Scalars
------------------------------------------------------------

/- What a letter behind a backslash stands for. -/
def escapeLetters : List (Char × Char) :=
  [('0', '\x00'), ('a', '\x07'), ('b', '\x08'),
    ('t', '\t'), ('\t', '\t'), ('n', '\n'),
    ('v', '\x0b'), ('f', '\x0c'), ('r', '\r'),
    ('e', '\x1b'), (' ', ' '), ('"', '"'), ('/', '/'),
    ('\\', '\\'), ('N', '\u0085'), ('_', '\u00a0'),
    ('L', '\u2028'), ('P', '\u2029')]

/- How many hexadecimal digits follow an escape letter. -/
def escapeWidth? (letter : Char) : Option Nat :=
  if letter = 'x' then some 2
  else if letter = 'u' then some 4
  else if letter = 'U' then some 8
  else none

/- The character that hexadecimal digits write, if it is
one. -/
def codePoint? (digits : List Char) : Option Char :=
  match Decimal.digits? 16 digits with
  | none => none
  | some n =>
      if n < 0xD800 ∨ (0xDFFF < n ∧ n < 0x110000) then
        some (Char.ofNat n)
      else
        none

/- The front of a quoted scalar without a gap: the characters
passed, the text they stand for, the text behind, and whether
an escaped line end has just been passed. -/
structure QuotedRun where
  passed : List Char
  text : List Char
  rest : List Char
  joined : Bool

/- A run with one more character in front, and the characters
that write it. -/
def QuotedRun.cons
    (written : List Char)
    (c : Char)
    (run : QuotedRun) : QuotedRun :=
  { run with
    passed := written ++ run.passed
    text := c :: run.text }

/- The front of a single-quoted scalar; a quote is written
twice. -/
def singleRun : List Char → QuotedRun
| [] => ⟨[], [], [], false⟩
| '\'' :: '\'' :: rest =>
    (singleRun rest).cons ['\'', '\''] '\''
| c :: rest =>
    if c = '\'' || isGap c then ⟨[], [], c :: rest, false⟩
    else (singleRun rest).cons [c] c

/- The front of a double-quoted scalar; a backslash starts an
escape, which may stand for a line end to leave out. -/
def doubleRun? : List Char → Option QuotedRun
| [] => some ⟨[], [], [], false⟩
| '\\' :: [] => none
| '\\' :: letter :: rest =>
    if isBreak letter then
      some ⟨['\\', letter], [], rest, true⟩
    else
      match escapeLetters.lookup letter with
      | some c =>
          (doubleRun? rest).map
            (QuotedRun.cons ['\\', letter] c)
      | none =>
          match escapeWidth? letter with
          | none => none
          | some width =>
              let digits := rest.take width
              match codePoint? digits with
              | none => none
              | some c =>
                  if digits.length < width then none
                  else
                    (doubleRun? (rest.drop width)).map
                      (QuotedRun.cons
                        ('\\' :: letter :: digits) c)
| c :: rest =>
    if c = '"' || isGap c then
      some ⟨[], [], c :: rest, false⟩
    else
      (doubleRun? rest).map (QuotedRun.cons [c] c)
termination_by text => text.length
decreasing_by
  all_goals simp only [List.length_cons, List.length_drop]
  all_goals omega

/-
  Go on with a quoted scalar behind its opening mark: its
  whole text, and the text behind the closing mark.
-/
def quotedLoop
    (single : Bool)
    (quotation : Char) :
    Nat → List Char → Mark → List Char →
      Option (List Char × List Char × Mark)
| 0, _, _, _ => none
| tries + 1, read, mark, text =>
    if atDocumentLine mark.column text then
      none
    else
      let run? :=
        if single then some (singleRun text)
        else doubleRun? text
      match run? with
      | none => none
      | some run =>
          let ending := mark.after run.passed
          match run.rest with
          | [] => none
          | c :: behind =>
              if c = quotation then
                some (read ++ run.text, behind,
                  ending.advance c)
              else
                let (gap, rest) := spanGap run.rest
                let folded :=
                  if run.joined then gap.filter isBreak
                  else foldGap gap
                quotedLoop single quotation tries
                  (read ++ run.text ++ folded)
                  (ending.after gap) rest

/- The quoted scalar whose opening mark stands here, in a
text of a size at most: its text, and the text behind it with
its place. -/
def quotedScalar?
    (size : Nat)
    (mark : Mark) :
    List Char → Option (List Char × List Char × Mark)
| [] => none
| quotation :: rest =>
    quotedLoop (quotation = '\'') quotation (size + 1)
      [] (mark.advance quotation) rest

end Yaml

end Carnatic
