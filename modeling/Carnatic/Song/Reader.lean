import Carnatic.Song
import Carnatic.Token.Scanner

/-
  Reading a song from its tokens.

  A song is any number of lines.  A line is two lists between
  braces, first the svaras and then the gamakas, with as many
  of one as of the other.  A svara is a name and the
  continuations behind it; a gamaka is a name.

  Reading stops at the first fault and keeps the tokens not
  yet consumed, so that it can go on from there.

  Key definitions include:
    * `Line.Fault`
    * `Line.svarasOf`
    * `Line.gamakasOf`
    * `Line.ofTokens`
    * `SongReader`
    * `SongReader.read`
    * `Song.ofText`
-/

------------------------------------------------------------
-- Lists Between Braces
------------------------------------------------------------

namespace Carnatic

/-
  Where the tokens left the grammar: the class that was
  expected, and the tokens from the offending one on.
-/
structure Misfit where
  expected : TokenKind
  rest : List Token
deriving DecidableEq, Repr

namespace Line

/- Take a token of a class off the front. -/
def expect
    (kind : TokenKind) :
    List Token → Except Misfit (List Token)
| [] => .error ⟨kind, []⟩
| token :: rest =>
    if token.kind = kind then .ok rest
    else .error ⟨kind, token :: rest⟩

/- How many continuations a list of tokens leads with. -/
def holdsOf (tokens : List Token) : Nat :=
  (tokens.takeWhile Token.isContinuation).length

/-
  Svaras up to the closing brace, and the tokens behind it.
  Each takes the continuations behind its name as holds. There
  are taken to be fewer than 2^32 - 1 of them behind a name,
  so that its duration is below 2^32.
-/
def svarasOf :
    List Token → Except Misfit (List Svara × List Token)
| [] => .error ⟨.listEnd, []⟩
| token :: rest =>
    if token.kind = .listEnd then
      .ok ([], rest)
    else if token.kind = .svaraName then
      match svarasOf (rest.dropWhile Token.isContinuation) with
      | .ok (svaras, behind) =>
          .ok (⟨token.word, holdsOf rest + 1,
            token.position⟩ :: svaras, behind)
      | .error misfit => .error misfit
    else
      .error ⟨.svaraName, token :: rest⟩
termination_by tokens => tokens.length
decreasing_by
  exact Nat.lt_succ_of_le
    (List.dropWhile_suffix _).length_le

/- Gamakas up to the closing brace, and what is behind. -/
def gamakasOf :
    List Token → Except Misfit (List Gamaka × List Token)
| [] => .error ⟨.listEnd, []⟩
| token :: rest =>
    if token.kind = .listEnd then
      .ok ([], rest)
    else if token.kind = .gamakaName then
      match gamakasOf rest with
      | .ok (gamakas, behind) =>
          .ok (⟨token.word, token.position⟩ :: gamakas,
            behind)
      | .error misfit => .error misfit
    else
      .error ⟨.gamakaName, token :: rest⟩

------------------------------------------------------------
-- Lines
------------------------------------------------------------

/-
  Why no line could be read: the grammar was left, or the
  lists of a complete line differ in length. The second keeps
  the line's place, its counts and the tokens behind it.
-/
inductive Fault
| misfit (misfit : Misfit)
| unequal
    (position : Position)
    (svaras gamakas : Nat)
    (rest : List Token)
deriving DecidableEq, Repr

/- A svara list in braces, and the tokens behind it. -/
def svaraList
    (tokens : List Token) :
    Except Misfit (List Svara × List Token) :=
  match expect .listStart tokens with
  | .ok rest => svarasOf rest
  | .error misfit => .error misfit

/- A gamaka list in braces, and the tokens behind it. -/
def gamakaList
    (tokens : List Token) :
    Except Misfit (List Gamaka × List Token) :=
  match expect .listStart tokens with
  | .ok rest => gamakasOf rest
  | .error misfit => .error misfit

/- The line that starts at a place, and what is behind. -/
def ofTokens
    (position : Position)
    (tokens : List Token) : Except Fault (Line × List Token) :=
  match svaraList tokens with
  | .error misfit => .error (.misfit misfit)
  | .ok (svaras, second) =>
      match gamakaList second with
      | .error misfit => .error (.misfit misfit)
      | .ok (gamakas, behind) =>
          if svaras.length = gamakas.length then
            .ok (⟨svaras, gamakas, position⟩, behind)
          else
            .error (.unequal position svaras.length
              gamakas.length behind)

/- Taking one token off leaves one token less. -/
theorem length_of_expect
    {kind : TokenKind}
    {tokens rest : List Token}
    (hExpect : expect kind tokens = .ok rest) :
    rest.length + 1 = tokens.length := by
  cases tokens with
  | nil => simp [expect] at hExpect
  | cons token tail =>
      simp only [expect] at hExpect
      split at hExpect
      · simp_all
      · simp at hExpect

/- Reading svaras consumes the closing brace at least. -/
theorem length_of_svarasOf
    {tokens behind : List Token}
    {svaras : List Svara}
    (hRead : svarasOf tokens = .ok (svaras, behind)) :
    behind.length < tokens.length := by
  fun_induction svarasOf tokens generalizing svaras behind with
  | case1 => simp at hRead
  | case2 token rest hEnd =>
      simp only [Except.ok.injEq, Prod.mk.injEq] at hRead
      rw [← hRead.2]
      exact Nat.lt_succ_self _
  | case3 token rest hEnd hName inner after hInner ih =>
      simp only [Except.ok.injEq, Prod.mk.injEq] at hRead
      rw [← hRead.2]
      exact Nat.lt_succ_of_lt (Nat.lt_of_lt_of_le
        (ih hInner) (List.dropWhile_suffix _).length_le)
  | case4 => simp at hRead
  | case5 => simp at hRead

/- Reading gamakas consumes the closing brace at least. -/
theorem length_of_gamakasOf
    {tokens behind : List Token}
    {gamakas : List Gamaka}
    (hRead : gamakasOf tokens = .ok (gamakas, behind)) :
    behind.length < tokens.length := by
  fun_induction gamakasOf tokens
    generalizing gamakas behind with
  | case1 => simp at hRead
  | case2 token rest hEnd =>
      simp only [Except.ok.injEq, Prod.mk.injEq] at hRead
      rw [← hRead.2]
      exact Nat.lt_succ_self _
  | case3 token rest hEnd hName inner after hInner ih =>
      simp only [Except.ok.injEq, Prod.mk.injEq] at hRead
      rw [← hRead.2]
      exact Nat.lt_succ_of_lt (ih hInner)
  | case4 => simp at hRead
  | case5 => simp at hRead

/- Reading a line consumes tokens. -/
theorem length_of_ofTokens
    {position : Position}
    {tokens behind : List Token}
    {line : Line}
    (hRead : ofTokens position tokens = .ok (line, behind)) :
    behind.length < tokens.length := by
  unfold ofTokens svaraList gamakaList at hRead
  cases hFirst : expect .listStart tokens with
  | error misfit => simp [hFirst] at hRead
  | ok rest =>
      cases hSvaras : svarasOf rest with
      | error misfit => simp [hFirst, hSvaras] at hRead
      | ok read =>
          rcases read with ⟨svaras, second⟩
          simp only [hFirst, hSvaras] at hRead
          cases hSecond : expect .listStart second with
          | error misfit => simp [hSecond] at hRead
          | ok inner =>
              cases hGamakas : gamakasOf inner with
              | error misfit =>
                  simp [hSecond, hGamakas] at hRead
              | ok read =>
                  rcases read with ⟨gamakas, after⟩
                  simp only [hSecond, hGamakas] at hRead
                  split at hRead
                  · simp only [Except.ok.injEq,
                      Prod.mk.injEq] at hRead
                    have hOne := length_of_expect hFirst
                    have hTwo := length_of_svarasOf hSvaras
                    have hThree := length_of_expect hSecond
                    have hFour := length_of_gamakasOf hGamakas
                    rw [← hRead.2]
                    omega
                  · simp at hRead

end Line

------------------------------------------------------------
-- Songs
------------------------------------------------------------

namespace Song

/- All lines of a list of tokens. -/
def linesOf :
    List Token → Except Line.Fault (List Line)
| [] => .ok []
| token :: rest =>
    match _hLine : Line.ofTokens token.position
        (token :: rest) with
    | .error fault => .error fault
    | .ok (line, behind) =>
        match linesOf behind with
        | .ok lines => .ok (line :: lines)
        | .error fault => .error fault
termination_by tokens => tokens.length
decreasing_by exact Line.length_of_ofTokens _hLine

end Song

/-
  A reading in progress: the tokens not yet consumed, and the
  place that errors at the end of the tokens point to.
-/
structure SongReader where
  rest : List Token
  ending : Position

namespace SongReader

/-
  A reader of some tokens. Their end is the place of the last
  one, or the start of a text where there is none.
-/
def ofTokens (tokens : List Token) : SongReader where
  rest := tokens
  ending :=
    match tokens.getLast? with
    | some token => token.position
    | none => ⟨1, 1⟩

/- The error for a fault. -/
def errorOf
    (reader : SongReader) :
    Line.Fault → SongError
| .misfit ⟨expected, []⟩ =>
    ⟨.unexpected expected none, reader.ending⟩
| .misfit ⟨expected, token :: _⟩ =>
    ⟨.unexpected expected (some token.word), token.position⟩
| .unequal position svaras gamakas _ =>
    ⟨.unequalCounts svaras gamakas, position⟩

/- The tokens that a fault leaves unconsumed. -/
def restOf : Line.Fault → List Token
| .misfit misfit => misfit.rest
| .unequal _ _ _ rest => rest

/-
  Read a song from the remaining tokens. A fault leaves the
  tokens from the offending one on, or those behind the line
  whose lists differ in length.
-/
def read
    (reader : SongReader) :
    Except SongError Song × SongReader :=
  match Song.linesOf reader.rest with
  | .ok lines => (.ok ⟨lines⟩, ⟨[], reader.ending⟩)
  | .error fault =>
      (.error (reader.errorOf fault),
        ⟨restOf fault, reader.ending⟩)

end SongReader

namespace Song

/- The song that some tokens write. -/
def ofTokens
    (tokens : List Token) : Except SongError Song :=
  (SongReader.ofTokens tokens).read.1

/- The song that a text writes. -/
def ofText (text : String) : Except SongError Song :=
  match Token.ofText text with
  | .ok tokens => ofTokens tokens
  | .error error => .error error

end Song

end Carnatic
