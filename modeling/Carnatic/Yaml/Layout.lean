import Carnatic.Yaml.Directive
import Carnatic.Yaml.Text

/-
  From a text to its tokens.

  A layout is a text that has been cut into tokens up to some
  place.  It knows the columns of the blocks that are open
  there, and for every open flow collection the last place
  where a mapping key may have started.  A colon turns such a
  place into a key afterwards.

  Key definitions include:
    * `Yaml.Layout`
    * `Yaml.Layout.step`
    * `Yaml.tokens?`
-/

------------------------------------------------------------
-- Layouts
------------------------------------------------------------

namespace Carnatic

namespace Yaml

/- A place where a mapping key may have started: how many
tokens stand before it, and whether nothing else may start
there. -/
structure KeyPlace where
  tokens : Nat
  mark : Mark
  required : Bool
deriving Repr

/-
  A text in the course of being cut. The columns of the open
  blocks come innermost first. The key place of the block
  level is `blockKey`; those of the open flow collections
  come innermost first in `flowKeys`. The tokens come latest
  first, and `count` is their number. The size of the whole
  text bounds what is left of it.
-/
structure Layout where
  size : Nat
  rest : List Char
  mark : Mark
  tokens : List Token
  count : Nat
  blocks : List Nat
  blockKey : Option KeyPlace
  flowKeys : List (Option KeyPlace)
  keyAllowed : Bool

namespace Layout

/- Nothing has been cut yet. -/
def ofText (text : List Char) : Layout where
  size := text.length
  rest := text
  mark := Mark.origin
  tokens := []
  count := 0
  blocks := []
  blockKey := none
  flowKeys := []
  keyAllowed := true

/- Some flow collection is open. -/
def inFlow (layout : Layout) : Bool :=
  !layout.flowKeys.isEmpty

/- The least column of a line that belongs to the innermost
block, one beyond the block's own. -/
def indent (layout : Layout) : Nat :=
  match layout.blocks with
  | [] => 0
  | column :: _ => column + 1

/- Add a token where a number of tokens stand before it. -/
def insert
    (layout : Layout)
    (index : Nat)
    (token : Token) : Layout :=
  let later := layout.count - index
  { layout with
    tokens := layout.tokens.take later ++
      token :: layout.tokens.drop later
    count := layout.count + 1 }

/- Add a token behind all others. -/
def push (layout : Layout) (token : Token) : Layout :=
  layout.insert layout.count token

/- Pass some characters of the text. -/
def pass (layout : Layout) (count : Nat) : Layout :=
  { layout with
    rest := layout.rest.drop count
    mark := layout.mark.after (layout.rest.take count) }

------------------------------------------------------------
-- Key Places
------------------------------------------------------------

/- The key place of the innermost level. -/
def keyPlace? (layout : Layout) : Option KeyPlace :=
  match layout.flowKeys with
  | [] => layout.blockKey
  | place :: _ => place

/- Set the key place of the innermost level. -/
def setKeyPlace
    (layout : Layout)
    (place : Option KeyPlace) : Layout :=
  match layout.flowKeys with
  | [] => { layout with blockKey := place }
  | _ :: outer => { layout with flowKeys := place :: outer }

/- Give up the innermost key place, which must not be a
required one. -/
def dropKeyPlace (layout : Layout) : Option Layout :=
  match layout.keyPlace? with
  | none => some layout
  | some place =>
      if place.required then none
      else some (layout.setKeyPlace none)

/- A key may start here, if one is allowed at all. -/
def markKeyPlace (layout : Layout) : Option Layout :=
  if layout.keyAllowed then
    layout.dropKeyPlace.map fun dropped =>
      dropped.setKeyPlace (some
        { tokens := layout.count
          mark := layout.mark
          required := !layout.inFlow &&
            layout.blocks.head? = some layout.mark.column })
  else
    some layout

/- A key place is still good: a key stays on its line and
within 1024 bytes. -/
def KeyPlace.isFresh
    (mark : Mark)
    (place : KeyPlace) : Bool :=
  mark.line ≤ place.mark.line &&
    mark.bytes ≤ place.mark.bytes + 1024

/- A key place that is no longer good is given up. -/
def refresh
    (mark : Mark) :
    Option KeyPlace → Option (Option KeyPlace)
| none => some none
| some place =>
    if KeyPlace.isFresh mark place then some (some place)
    else if place.required then none
    else some none

/- Give up all key places that are no longer good. -/
def refreshKeys (layout : Layout) : Option Layout :=
  match refresh layout.mark layout.blockKey,
      layout.flowKeys.mapM (refresh layout.mark) with
  | some blockKey, some flowKeys =>
      some { layout with
        blockKey := blockKey
        flowKeys := flowKeys }
  | _, _ => none

------------------------------------------------------------
-- Blocks
------------------------------------------------------------

/-
  Open a block at a column beyond the innermost one, with its
  first token standing at an index. Inside flow collections
  columns mean nothing.
-/
def openBlock
    (layout : Layout)
    (column index : Nat)
    (token : Token) : Layout :=
  if !layout.inFlow && layout.indent ≤ column then
    { layout.insert index token with
      blocks := column :: layout.blocks }
  else
    layout

/- Close the innermost blocks while a condition on their
column holds. -/
def closeWhile
    (condition : Nat → Bool)
    (layout : Layout) :
    List Nat → Layout
| [] => { layout with blocks := [] }
| column :: outer =>
    if condition column then
      closeWhile condition (layout.push .blockEnd) outer
    else
      { layout with blocks := column :: outer }

/- Close the blocks beyond the column of the next token. In a
flow collection columns mean nothing. -/
def closeBeyond (layout : Layout) : Layout :=
  if layout.inFlow then layout
  else
    closeWhile (fun column => layout.mark.column < column)
      layout layout.blocks

/- Close all blocks, unless a flow collection is open. -/
def closeAll (layout : Layout) : Layout :=
  if layout.inFlow then layout
  else closeWhile (fun _ => true) layout layout.blocks

------------------------------------------------------------
-- Blanks And Comments
------------------------------------------------------------

/-
  Pass blanks, comments and line ends. A tab is a blank only
  where no key may start, or in a flow collection. After a
  line end a key may start again outside flow collections. A
  byte order mark is passed in front of a line, of which it
  takes up a column.
-/
def skipBlanks
    (inFlow : Bool) :
    Bool → Bool → Mark → List Char →
      Bool × Mark × List Char
| _, keyAllowed, mark, [] => (keyAllowed, mark, [])
| inComment, keyAllowed, mark, c :: rest =>
    if isBreak c then
      skipBlanks inFlow false (keyAllowed || !inFlow)
        (mark.advance c) rest
    else if inComment || c = '#' then
      skipBlanks inFlow true keyAllowed
        (mark.advance c) rest
    else if c = ' ' ||
        (c = '\t' && (inFlow || !keyAllowed)) ||
        (c = byteOrderMark && mark.column = 0) then
      skipBlanks inFlow false keyAllowed
        (mark.advance c) rest
    else
      (keyAllowed, mark, c :: rest)

/- Go to the next token. -/
def toNext (layout : Layout) : Layout :=
  let (keyAllowed, mark, rest) := skipBlanks layout.inFlow
    false layout.keyAllowed layout.mark layout.rest
  { layout with
    keyAllowed := keyAllowed
    mark := mark
    rest := rest }

------------------------------------------------------------
-- Cutting Tokens
------------------------------------------------------------

/- Cut a line that starts or ends a document. -/
def documentLine
    (layout : Layout)
    (token : Token) : Option Layout :=
  layout.closeAll.dropKeyPlace.map fun dropped =>
    { (dropped.pass 3).push token with keyAllowed := false }

/- Cut a directive with the end of its line. -/
def directive (layout : Layout) : Option Layout :=
  match layout.closeAll.dropKeyPlace,
      directive? layout.rest.tail with
  | some dropped, some (token, behind) =>
      let passed := layout.rest.length - behind.length
      some { (dropped.pass passed).push token with
        keyAllowed := false }
  | _, _ => none

/- Cut the bracket that opens a flow collection. It may start
a key itself. -/
def openFlow
    (layout : Layout)
    (token : Token) : Option Layout :=
  layout.markKeyPlace.map fun marked =>
    { (marked.pass 1).push token with
      flowKeys := none :: marked.flowKeys
      keyAllowed := true }

/- Cut the bracket that closes a flow collection. -/
def closeFlow
    (layout : Layout)
    (token : Token) : Option Layout :=
  layout.dropKeyPlace.map fun dropped =>
    { (dropped.pass 1).push token with
      flowKeys := dropped.flowKeys.tail
      keyAllowed := false }

/- Cut the comma between items of a flow collection. -/
def separator (layout : Layout) : Option Layout :=
  layout.dropKeyPlace.map fun dropped =>
    { (dropped.pass 1).push .separator with
      keyAllowed := true }

/- Cut the dash in front of an item of a block sequence. -/
def entry (layout : Layout) : Option Layout :=
  if !layout.inFlow && !layout.keyAllowed then
    none
  else
    let opened := layout.openBlock layout.mark.column
      layout.count .blockSequenceStart
    opened.dropKeyPlace.map fun dropped =>
      { (dropped.pass 1).push .entry with
        keyAllowed := true }

/- Cut the question mark in front of a key. -/
def explicitKey (layout : Layout) : Option Layout :=
  if !layout.inFlow && !layout.keyAllowed then
    none
  else
    let opened := layout.openBlock layout.mark.column
      layout.count .blockMappingStart
    opened.dropKeyPlace.map fun dropped =>
      { (dropped.pass 1).push .key with
        keyAllowed := !layout.inFlow }

/-
  Cut the colon in front of a value. If a key may have
  started before, it did: the key's token goes there, and
  with it the start of a mapping.
-/
def value (layout : Layout) : Option Layout :=
  match layout.keyPlace? with
  | some place =>
      let keyed :=
        (layout.setKeyPlace none).insert place.tokens .key
      let opened := keyed.openBlock place.mark.column
        place.tokens .blockMappingStart
      some { (opened.pass 1).push .value with
        keyAllowed := false }
  | none =>
      if !layout.inFlow && !layout.keyAllowed then
        none
      else
        let opened := layout.openBlock layout.mark.column
          layout.count .blockMappingStart
        some { (opened.pass 1).push .value with
          keyAllowed := !layout.inFlow }

/- Cut a scalar in quotation marks. -/
def quoted (layout : Layout) : Option Layout :=
  match layout.markKeyPlace,
      quotedScalar? layout.size layout.mark layout.rest with
  | some marked, some (text, rest, mark) =>
      some { marked.push (.scalar (String.ofList text) false)
        with
          rest := rest
          mark := mark
          keyAllowed := false }
  | _, _ => none

/- Cut a scalar without quotation marks. Where a line ends
behind it, a key may start again. -/
def plain (layout : Layout) : Option Layout :=
  match layout.markKeyPlace,
      plainScalar? layout.size layout.inFlow layout.indent
        layout.mark layout.rest with
  | some marked, some scalar =>
      some
        { marked.push
            (.scalar (String.ofList scalar.text) true) with
          rest := scalar.rest
          mark := scalar.mark
          keyAllowed := scalar.broken }
  | _, _ => none

/- The characters that no plain scalar starts with, a few
before a gap alone. -/
def indicators : List Char :=
  ['-', '?', ':', ',', '[', ']', '\x7b', '\x7d', '#', '&',
    '*', '!', '|', '>', '\'', '"', '%', '@', '\x60']

/- A plain scalar starts here. -/
def startsPlain
    (inFlow : Bool)
    (c : Char)
    (rest : List Char) : Bool :=
  (!isGap c && !indicators.contains c) ||
    (c = '-' && !(rest.head?.any isSpace)) ||
    (!inFlow && (c = '?' || c = ':') && !atGap rest)

/- Cut the token that starts at a character, given the text
behind the character. -/
def cut
    (layout : Layout)
    (c : Char)
    (rest : List Char) : Option Layout :=
  let column := layout.mark.column
  if c = '%' && column = 0 then layout.directive
  else if atTriple '-' column layout.rest then
    layout.documentLine .documentStart
  else if atTriple '.' column layout.rest then
    layout.documentLine .documentEnd
  else if c = '[' then layout.openFlow .flowSequenceStart
  else if c = '\x7b' then layout.openFlow .flowMappingStart
  else if c = ']' then layout.closeFlow .flowSequenceEnd
  else if c = '\x7d' then layout.closeFlow .flowMappingEnd
  else if c = ',' then layout.separator
  else if c = '-' && atGap rest then layout.entry
  else if c = '?' && (layout.inFlow || atGap rest) then
    layout.explicitKey
  else if c = ':' && (layout.inFlow || atGap rest) then
    layout.value
  else if c = '\'' || c = '"' then layout.quoted
  else if startsPlain layout.inFlow c rest then layout.plain
  else none

/- Cut the next token, or close what is open at the end of
the text: the second answer is whether the end is reached. -/
def step (layout : Layout) : Option (Layout × Bool) :=
  match layout.toNext.refreshKeys with
  | none => none
  | some fresh =>
      match fresh.rest with
      | [] =>
          fresh.closeAll.dropKeyPlace.map fun ended =>
            (ended, true)
      | c :: rest =>
          (fresh.closeBeyond.cut c rest).map fun cut =>
            (cut, false)

/- Cut the whole text, in a number of steps at most. -/
def run : Nat → Layout → Option (List Token)
| 0, _ => none
| tries + 1, layout =>
    match layout.step with
    | none => none
    | some (ended, true) => some ended.tokens.reverse
    | some (cut, false) => cut.run tries

end Layout

/- The tokens of a text. Every step but the last passes at
least one character. -/
def tokens? (text : String) : Option (List Token) :=
  match normalize? text with
  | none => none
  | some characters =>
      let layout := Layout.ofText characters
      layout.run (layout.size + 1)

end Yaml

end Carnatic
