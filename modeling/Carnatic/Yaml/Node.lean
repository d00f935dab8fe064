import Carnatic.Yaml.Layout

/-
  Nodes of a settings text.

  A node is a scalar, a sequence or a mapping.  Where a text
  leaves a value out, the node is an empty plain scalar.

  Key definitions include:
    * `Yaml.Node`
    * `Yaml.Node.ofTokens?`
    * `Yaml.document?`
-/

------------------------------------------------------------
-- Nodes
------------------------------------------------------------

namespace Carnatic

namespace Yaml

/- What a text describes. The entries of a mapping keep their
order, and a key may occur more than once. -/
inductive Node
| scalar (text : String) (plain : Bool)
| sequence (items : List Node)
| mapping (entries : List (Node × Node))
deriving Inhabited, Repr

namespace Node

/- A value that the text leaves out. -/
def absent : Node :=
  .scalar "" true

------------------------------------------------------------
-- Reading Nodes
------------------------------------------------------------

/- No node starts in front of these tokens: one of some kinds
comes first. -/
def leads
    (kinds : List Token) :
    List Token → Bool
| [] => false
| token :: _ => kinds.contains token

/- The tokens that end the key or the value of a block
mapping. -/
def blockStops : List Token :=
  [.key, .value, .blockEnd]

mutual

/-
  The node that starts here, and the tokens behind it. Block
  collections are read where `block` holds; where `indentless`
  holds, so are sequences whose dashes are not indented. The
  first argument bounds the depth of the reading.
-/
def read?
    (tries : Nat)
    (block indentless : Bool)
    (tokens : List Token) : Option (Node × List Token) :=
  match tries, tokens with
  | 0, _ => none
  | _, [] => none
  | _, .scalar text plain :: rest =>
      some (.scalar text plain, rest)
  | tries + 1, .flowSequenceStart :: rest =>
      (flowItems? tries true rest).map fun (items, rest) =>
        (.sequence items, rest)
  | tries + 1, .flowMappingStart :: rest =>
      (flowEntries? tries true rest).map
        fun (entries, rest) => (.mapping entries, rest)
  | tries + 1, .blockSequenceStart :: rest =>
      if block then
        (blockItems? tries rest).map fun (items, rest) =>
          (.sequence items, rest)
      else none
  | tries + 1, .blockMappingStart :: rest =>
      if block then
        (blockEntries? tries rest).map
          fun (entries, rest) => (.mapping entries, rest)
      else none
  | tries + 1, .entry :: rest =>
      if indentless then
        (looseItems? tries (.entry :: rest)).map
          fun (items, rest) => (.sequence items, rest)
      else none
  | _, _ => none

/- A node, or an absent one where some tokens come first. -/
def readUnless?
    (tries : Nat)
    (stops : List Token)
    (block indentless : Bool)
    (tokens : List Token) : Option (Node × List Token) :=
  match tries with
  | 0 => none
  | tries + 1 =>
      if leads stops tokens then some (absent, tokens)
      else read? tries block indentless tokens

/- A value behind its colon; without a colon it is absent. -/
def valueUnless?
    (tries : Nat)
    (stops : List Token)
    (block : Bool)
    (tokens : List Token) : Option (Node × List Token) :=
  match tries, tokens with
  | 0, _ => none
  | tries + 1, .value :: rest =>
      readUnless? tries stops block block rest
  | _, tokens => some (absent, tokens)

/- The items of a block sequence, up to its end. -/
def blockItems?
    (tries : Nat)
    (tokens : List Token) :
    Option (List Node × List Token) :=
  match tries, tokens with
  | tries + 1, .entry :: rest =>
      match readUnless? tries [.entry, .blockEnd]
          true false rest with
      | none => none
      | some (item, rest) =>
          (blockItems? tries rest).map fun (items, rest) =>
            (item :: items, rest)
  | _ + 1, .blockEnd :: rest => some ([], rest)
  | _, _ => none

/- The items of a sequence that is not indented: it ends
where no dash follows. -/
def looseItems?
    (tries : Nat)
    (tokens : List Token) :
    Option (List Node × List Token) :=
  match tries, tokens with
  | 0, _ => none
  | tries + 1, .entry :: rest =>
      match readUnless? tries (.entry :: blockStops)
          true false rest with
      | none => none
      | some (item, rest) =>
          (looseItems? tries rest).map fun (items, rest) =>
            (item :: items, rest)
  | _ + 1, tokens => some ([], tokens)

/- The entries of a block mapping, up to its end. -/
def blockEntries?
    (tries : Nat)
    (tokens : List Token) :
    Option (List (Node × Node) × List Token) :=
  match tries, tokens with
  | tries + 1, .key :: rest =>
      match readUnless? tries blockStops true true rest with
      | none => none
      | some (key, rest) =>
          match valueUnless? tries blockStops true rest with
          | none => none
          | some (value, rest) =>
              (blockEntries? tries rest).map
                fun (entries, rest) =>
                  ((key, value) :: entries, rest)
  | _ + 1, .blockEnd :: rest => some ([], rest)
  | _, _ => none

/-
  The items of a flow sequence, up to its end. Items but the
  first follow a comma; an item with a colon is a mapping of
  one entry. Behind a question mark, a colon, a comma or the
  closing bracket stands for an absent key itself, and has no
  other meaning there.
-/
def flowItems?
    (tries : Nat)
    (first : Bool)
    (tokens : List Token) :
    Option (List Node × List Token) :=
  let item? :=
    match first, tokens with
    | true, tokens => some tokens
    | false, .separator :: rest => some rest
    | false, _ => none
  match tries, tokens, item? with
  | 0, _, _ => none
  | _, .flowSequenceEnd :: rest, _ => some ([], rest)
  | _, _, some (.flowSequenceEnd :: rest) => some ([], rest)
  | tries + 1, _, some (.key :: rest) =>
      let stops := [.separator, .flowSequenceEnd]
      let key? :=
        if leads (.value :: stops) rest then
          some (absent, rest.tail)
        else
          read? tries false false rest
      match key? with
      | none => none
      | some (key, rest) =>
          match valueUnless? tries stops false rest with
          | none => none
          | some (value, rest) =>
              (flowItems? tries false rest).map
                fun (items, rest) =>
                  (.mapping [(key, value)] :: items, rest)
  | tries + 1, _, some tokens =>
      match read? tries false false tokens with
      | none => none
      | some (item, rest) =>
          (flowItems? tries false rest).map
            fun (items, rest) => (item :: items, rest)
  | _, _, none => none

/-
  The entries of a flow mapping, up to its end. Entries but
  the first follow a comma; one without a colon has no value.
-/
def flowEntries?
    (tries : Nat)
    (first : Bool)
    (tokens : List Token) :
    Option (List (Node × Node) × List Token) :=
  let entry? :=
    match first, tokens with
    | true, tokens => some tokens
    | false, .separator :: rest => some rest
    | false, _ => none
  match tries, tokens, entry? with
  | 0, _, _ => none
  | _, .flowMappingEnd :: rest, _ => some ([], rest)
  | _, _, some (.flowMappingEnd :: rest) => some ([], rest)
  | tries + 1, _, some (.key :: rest) =>
      let stops := [.separator, .flowMappingEnd]
      match readUnless? tries (.value :: stops)
          false false rest with
      | none => none
      | some (key, rest) =>
          match valueUnless? tries stops false rest with
          | none => none
          | some (value, rest) =>
              (flowEntries? tries false rest).map
                fun (entries, rest) =>
                  ((key, value) :: entries, rest)
  | tries + 1, _, some tokens =>
      match read? tries false false tokens with
      | none => none
      | some (key, rest) =>
          (flowEntries? tries false rest).map
            fun (entries, rest) =>
              ((key, absent) :: entries, rest)
  | _, _, none => none

end

------------------------------------------------------------
-- Documents
------------------------------------------------------------

/-
  The tokens behind the directives in front of a document, if
  there are any: one version at most, 1.1 or 1.2, and no
  handle twice.
-/
def passDirectives?
    (versioned : Bool)
    (handles : List String) :
    List Token → Option (List Token)
| .version major minor :: rest =>
    if !versioned && major = 1 && (minor = 1 || minor = 2) then
      passDirectives? true handles rest
    else none
| .tagHandle handle :: rest =>
    if handles.contains handle then none
    else passDirectives? versioned (handle :: handles) rest
| tokens => some tokens

/-
  The node of a document, and the tokens behind it. A line
  that starts the document may stand alone, and must stand
  behind directives.
-/
def content?
    (tokens : List Token) : Option (Node × List Token) :=
  let tries := 3 * tokens.length + 3
  match passDirectives? false [] tokens with
  | none => none
  | some (.documentStart :: rest) =>
      if rest.isEmpty ||
          leads [.documentStart, .documentEnd] rest then
        some (absent, rest)
      else
        read? tries true false rest
  | some bare =>
      if bare.length < tokens.length then none
      else read? tries true false bare

/-
  The node of a text that holds one document, or of an empty
  text. Lines that end documents may follow, and nothing
  else.
-/
def ofTokens? (tokens : List Token) : Option Node :=
  if tokens.isEmpty then
    some absent
  else
    match content? tokens with
    | none => none
    | some (node, rest) =>
        if rest.all fun token => token = .documentEnd then
          some node
        else
          none

end Node

/- The node that a text describes. -/
def document? (text : String) : Option Node :=
  (tokens? text).bind Node.ofTokens?

end Yaml

end Carnatic
