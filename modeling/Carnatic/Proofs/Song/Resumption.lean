import Carnatic.Proofs.Song.Earliest

/-
  Reading on.

  A reader can be asked for a song again and again. Each call
  answers like a new reader of the tokens that the calls
  before it have left, although errors at the end of the
  tokens point to the last of all of them. What a call leaves
  depends on how it ends, and some ends are for good: a reader
  without tokens only finds empty songs, and a token that
  opens no list is never passed.

  Main declarations:
    * `Song.Leaves`
    * `Song.leaves_of_linesOf_error`
    * `SongReader.after` and `SongReader.answer`
    * `SongReader.Resumes` and `SongReader.resumes`
-/

------------------------------------------------------------
-- Tokens That Are Left
------------------------------------------------------------

namespace Carnatic

namespace Song

/-
  The tokens that a reading leaves behind its answer. A song
  takes all tokens, and so does a line that wants more of
  them. A token that ends every hope for a shape is left with
  all behind it. A line of unequal counts is taken up to its
  last brace.
-/
inductive Leaves :
    List Token → Except SongError Song → List Token → Prop
| song (tokens : List Token) (song : Song) :
    Leaves tokens (.ok song) []
| token
    {tokens : List Token}
    {index : Nat}
    {error : SongError}
    (hStops : StopsAt tokens index error) :
    Leaves tokens (.error error) (tokens.drop index)
| ending
    {tokens : List Token}
    {error : SongError}
    (hEnds : EndsInside tokens error) :
    Leaves tokens (.error error) []
| counts
    {song : Song}
    {line : Line}
    {own lineOwn : List Token}
    (hBalanced : song.IsBalanced)
    (hOwn : song.WrittenBy own)
    (hShaped : line.IsShaped)
    (hLine : line.WrittenBy lineOwn)
    (hLengths : line.svaras.length ≠ line.gamakas.length)
    (behind : List Token) :
    Leaves (own ++ (lineOwn ++ behind))
      (.error
        ⟨.unequalCounts line.svaras.length
          line.gamakas.length, line.position⟩)
      behind

/- What is left stands at the end of the tokens. -/
theorem Leaves.suffix
    {tokens rest : List Token}
    {answer : Except SongError Song}
    (hLeaves : Leaves tokens answer rest) :
    rest <:+ tokens := by
  cases hLeaves with
  | song => exact List.nil_suffix
  | token => exact List.drop_suffix _ _
  | ending => exact List.nil_suffix
  | counts =>
      rw [← List.append_assoc]
      exact List.suffix_append _ _

/- Only one token ends every hope. -/
theorem StopsAt.index_le
    {tokens : List Token}
    {index other : Nat}
    {error otherError : SongError}
    (hStops : StopsAt tokens index error)
    (hOther : StopsAt tokens other otherError) :
    index ≤ other := by
  by_contra hBehind
  have hFront :
      tokens.take (other + 1) <+: tokens.take index :=
    List.take_prefix_take_left (by omega)
  rcases hFront with ⟨more, hTake⟩
  have hBegun := hStops.begun
  rw [← hTake] at hBegun
  exact hOther.stops hBegun.of_append

/- Behind a token that ends every hope, the tokens from it on
are left. -/
theorem Leaves.eq_drop_of_stopsAt
    {tokens rest : List Token}
    {index : Nat}
    {error : SongError}
    (hLeaves : Leaves tokens (.error error) rest)
    (hStops : StopsAt tokens index error) :
    rest = tokens.drop index := by
  generalize hAnswer :
    (Except.error error : Except SongError Song) = answer
    at hLeaves
  cases hLeaves with
  | song => cases hAnswer
  | token hOther =>
      have hSame := Nat.le_antisymm
        (hStops.index_le hOther) (hOther.index_le hStops)
      rw [hSame]
  | ending hEnds =>
      cases hAnswer
      rcases hStops.error_eq with ⟨_, _, _, _, _, rfl⟩
      rcases hEnds.error_eq with ⟨_, _, _, _, _, hSame⟩
      simp at hSame
  | counts =>
      cases hAnswer
      rcases hStops.error_eq with ⟨_, _, _, _, _, hSame⟩
      simp at hSame

/- A song leaves no tokens. -/
theorem Leaves.eq_nil_of_ok
    {tokens rest : List Token}
    {song : Song}
    (hLeaves : Leaves tokens (.ok song) rest) :
    rest = [] := by
  cases hLeaves
  rfl

/- Neither does an error at the end of the tokens. -/
theorem Leaves.eq_nil_of_unexpected_none
    {tokens rest : List Token}
    {expected : TokenKind}
    {position : Position}
    (hLeaves :
      Leaves tokens
        (.error ⟨.unexpected expected none, position⟩)
        rest) :
    rest = [] := by
  cases hLeaves with
  | token hStops =>
      rcases hStops.error_eq with ⟨_, _, _, _, _, hSame⟩
      simp at hSame
  | ending => rfl

/- An error at the end of the tokens can only be about a line
that wants more of them. -/
theorem endsInside_of_unexpected_none
    {tokens : List Token}
    {expected : TokenKind}
    {position : Position}
    (hError :
      ofTokens tokens =
        .error ⟨.unexpected expected none, position⟩) :
    EndsInside tokens
      ⟨.unexpected expected none, position⟩ := by
  rcases ofTokens_eq_error_iff_earliest.mp hError with
    ⟨index, hStops⟩ | hEnds | hUneven
  · rcases hStops.error_eq with ⟨_, _, _, _, _, hSame⟩
    simp at hSame
  · exact hEnds
  · cases hUneven

/- A reading that fails leaves the tokens of its fault. -/
theorem leaves_of_linesOf_error
    {tokens : List Token}
    {fault : Line.Fault}
    (hRead : linesOf tokens = .error fault) :
    Leaves tokens
      (.error ((SongReader.ofTokens tokens).errorOf fault))
      (SongReader.restOf fault) := by
  have hError :
      ofTokens tokens =
        .error
          ((SongReader.ofTokens tokens).errorOf fault) := by
    unfold ofTokens SongReader.read
    simp only [SongReader.ofTokens, hRead]
  rcases linesOf_eq_error_iff.mp hRead with
    ⟨song, own, first, rest, hBalanced, hWritten, rfl, hFault⟩
  cases fault with
  | unequal position svaras gamakas behind =>
      rcases Line.ofTokens_eq_unequal_iff.mp hFault with
        ⟨line, lineOwn, hTokens, hLine, hNone, hLengths, rfl,
          rfl, rfl⟩
      have hDuration := Line.duration_pos_of_writtenBy hLine
      rw [hTokens]
      exact .counts hBalanced hWritten ⟨hDuration, hNone⟩
        hLine hLengths behind
  | misfit misfit =>
      rcases misfit with ⟨expected, left⟩
      cases left with
      | nil =>
          exact .ending (endsInside_of_unexpected_none hError)
      | cons found later =>
          rcases Line.ofTokens_eq_misfit_iff.mp hFault with
            ⟨reached, hReached, hRun, hExpected⟩
          rcases Line.Place.exists_front_of_run hRun with
            ⟨begun, hTokens, hBegun, hRest⟩
          rcases Line.exists_missed_of_next_eq_none hReached
              hBegun (hRest found rfl) with
            ⟨missed, hItem, hKind, hMissed, hFound⟩
          have hStops := stopsAt_of_not_goesOn hBalanced
            hWritten hMissed hKind hFound later
          have hLeaves := Leaves.token hStops
          rw [List.drop_left, List.append_assoc, ← hTokens,
            hItem] at hLeaves
          have hSame : expected = reached.item := hExpected
          rw [← hSame] at hLeaves
          exact hLeaves

end Song

------------------------------------------------------------
-- Calls
------------------------------------------------------------

namespace SongReader

/- The reader that some calls leave. -/
def after (reader : SongReader) : Nat → SongReader
| 0 => reader
| calls + 1 => (reader.after calls).read.2

/- What the next call answers behind some others. -/
def answer
    (reader : SongReader)
    (calls : Nat) : Except SongError Song :=
  (reader.after calls).read.1

/-
  A reader in the middle of some tokens: it has come to those
  at their end, and still knows the place of the last one.
-/
structure IsWithin
    (reader : SongReader)
    (tokens : List Token) : Prop where
  suffix : reader.rest <:+ tokens
  ending_eq : reader.ending = (ofTokens tokens).ending

theorem isWithin_ofTokens (tokens : List Token) :
    (ofTokens tokens).IsWithin tokens where
  suffix := List.suffix_rfl
  ending_eq := rfl

variable {reader : SongReader}
variable {tokens : List Token}

/- In the middle of some tokens a reader reports a fault like
a new reader of the tokens that are left. -/
theorem IsWithin.errorOf_eq
    (hWithin : reader.IsWithin tokens)
    (hRest : reader.rest ≠ [])
    (fault : Line.Fault) :
    reader.errorOf fault =
      (ofTokens reader.rest).errorOf fault := by
  rcases hWithin.suffix with ⟨front, hTokens⟩
  have hEnding := hWithin.ending_eq
  rw [← hTokens] at hEnding
  rw [← Song.errorOf_append front hRest]
  cases fault with
  | misfit misfit =>
      rcases misfit with ⟨expected, _ | ⟨token, rest⟩⟩
      · simp only [errorOf, hEnding]
      · rfl
  | unequal => rfl

/- A call answers like a new reader, and leaves the tokens that
its answer leaves. -/
theorem IsWithin.leaves_read
    (hWithin : reader.IsWithin tokens) :
    reader.read.1 = Song.ofTokens reader.rest ∧
      Song.Leaves reader.rest reader.read.1
        reader.read.2.rest := by
  cases hLines : Song.linesOf reader.rest with
  | ok lines =>
      unfold Song.ofTokens read
      simp only [ofTokens, hLines, true_and]
      exact .song reader.rest ⟨lines⟩
  | error fault =>
      have hRest : reader.rest ≠ [] := by
        intro hNil
        simp [hNil, Song.linesOf] at hLines
      have hLeaves := Song.leaves_of_linesOf_error hLines
      rw [← hWithin.errorOf_eq hRest] at hLeaves
      unfold Song.ofTokens read
      simp only [ofTokens, hLines]
      refine ⟨?_, hLeaves⟩
      exact congrArg Except.error
        (hWithin.errorOf_eq hRest fault)

@[simp]
theorem ending_read (reader : SongReader) :
    reader.read.2.ending = reader.ending := by
  unfold read
  cases Song.linesOf reader.rest <;> rfl

/- No call leaves the tokens. -/
theorem IsWithin.read
    (hWithin : reader.IsWithin tokens) :
    reader.read.2.IsWithin tokens where
  suffix := hWithin.leaves_read.2.suffix.trans hWithin.suffix
  ending_eq := by
    rw [ending_read, hWithin.ending_eq]

theorem isWithin_after
    (tokens : List Token)
    (calls : Nat) :
    ((ofTokens tokens).after calls).IsWithin tokens := by
  induction calls with
  | zero => exact isWithin_ofTokens tokens
  | succ calls ih => exact ih.read

/- What one call keeps, all later calls keep. -/
theorem after_of_kept
    (kept : SongReader → Prop)
    (hRead : ∀ reader, kept reader → kept reader.read.2)
    {calls later : Nat}
    (hKept : kept (reader.after calls))
    (hLater : calls ≤ later) :
    kept (reader.after later) := by
  induction hLater with
  | refl => exact hKept
  | step _ ih => exact hRead _ ih

------------------------------------------------------------
-- Ends For Good
------------------------------------------------------------

/- A reader without tokens finds the empty song, and has none
behind it. -/
theorem read_of_rest_nil
    (hRest : reader.rest = []) :
    reader.read = (.ok ⟨[]⟩, reader) := by
  rcases reader with ⟨rest, ending⟩
  subst hRest
  simp [read, Song.linesOf]

/- A token that opens no list is not passed. -/
theorem read_of_rest_cons
    {found : Token}
    {later : List Token}
    (hRest : reader.rest = found :: later)
    (hKind : found.kind ≠ .listStart) :
    reader.read =
      (.error
        ⟨.unexpected .listStart (some found.word),
          found.position⟩, reader) := by
  rcases reader with ⟨rest, ending⟩
  subst hRest
  simp [read, Song.linesOf_cons, Line.ofTokens,
    Line.svaraList, Line.expect, hKind, errorOf, restOf]

/- Behind a call that leaves no tokens, all find the empty
song. -/
theorem answer_of_rest_nil
    {calls later : Nat}
    (hRest : (reader.after (calls + 1)).rest = [])
    (hLater : calls < later) :
    reader.answer later = .ok ⟨[]⟩ := by
  have hLeft : (reader.after later).rest = [] := by
    apply after_of_kept (fun other => other.rest = []) ?_
      hRest hLater
    intro other hOther
    rwa [read_of_rest_nil hOther]
  rw [answer, read_of_rest_nil hLeft]

/- Behind a call that leaves a token which opens no list, all
fail at this token. -/
theorem answer_of_rest_cons
    {calls later : Nat}
    {found : Token}
    {rest : List Token}
    (hRest : (reader.after (calls + 1)).rest = found :: rest)
    (hKind : found.kind ≠ .listStart)
    (hLater : calls < later) :
    reader.answer later =
      .error
        ⟨.unexpected .listStart (some found.word),
          found.position⟩ := by
  have hLeft : (reader.after later).rest = found :: rest := by
    apply after_of_kept
      (fun other => other.rest = found :: rest) ?_ hRest
      hLater
    intro other hOther
    rwa [read_of_rest_cons hOther hKind]
  rw [answer, read_of_rest_cons hLeft hKind]

------------------------------------------------------------
-- All Calls
------------------------------------------------------------

/- The number of tokens that some calls have consumed. -/
def consumed
    (tokens : List Token)
    (calls : Nat) : Nat :=
  tokens.length - ((ofTokens tokens).after calls).rest.length

/- The calls to one reader of some tokens: each goes on where
the one before it stopped. -/
structure Resumes (tokens : List Token) : Prop where
  after_eq :
    ∀ calls,
      (ofTokens tokens).after calls =
        ⟨tokens.drop (consumed tokens calls),
          (ofTokens tokens).ending⟩
  answer_eq :
    ∀ calls,
      (ofTokens tokens).answer calls =
        Song.ofTokens (tokens.drop (consumed tokens calls))
  leaves :
    ∀ calls,
      Song.Leaves (tokens.drop (consumed tokens calls))
        ((ofTokens tokens).answer calls)
        (tokens.drop (consumed tokens (calls + 1)))
  consumed_zero : consumed tokens 0 = 0
  consumed_le :
    ∀ calls,
      consumed tokens calls ≤ consumed tokens (calls + 1) ∧
        consumed tokens (calls + 1) ≤ tokens.length
  spent :
    ∀ calls later,
      calls < later →
        ((∃ song,
            (ofTokens tokens).answer calls = .ok song) ∨
          ∃ expected position,
            (ofTokens tokens).answer calls =
              .error
                ⟨.unexpected expected none, position⟩) →
          (ofTokens tokens).answer later = .ok ⟨[]⟩
  stuck :
    ∀ calls later index found error,
      calls < later →
        (ofTokens tokens).answer calls = .error error →
          Song.StopsAt (tokens.drop (consumed tokens calls))
              index error →
            (tokens.drop (consumed tokens calls))[index]? =
                some found →
              found.kind ≠ .listStart →
                (ofTokens tokens).answer later =
                  .error
                    ⟨.unexpected .listStart (some found.word),
                      found.position⟩

/- A reader holds the tokens that it has not consumed. -/
theorem rest_after
    (tokens : List Token)
    (calls : Nat) :
    ((ofTokens tokens).after calls).rest =
      tokens.drop (consumed tokens calls) :=
  List.suffix_iff_eq_drop.mp
    (isWithin_after tokens calls).suffix

/- A call answers for the tokens that are not consumed, and
consumes those that its answer does not leave. -/
theorem leaves_after
    (tokens : List Token)
    (calls : Nat) :
    (ofTokens tokens).answer calls =
        Song.ofTokens (tokens.drop (consumed tokens calls)) ∧
      Song.Leaves (tokens.drop (consumed tokens calls))
        ((ofTokens tokens).answer calls)
        (tokens.drop (consumed tokens (calls + 1))) := by
  rw [← rest_after, ← rest_after]
  exact (isWithin_after tokens calls).leaves_read

/- Any number of calls to one reader resume, whatever the
tokens are. -/
theorem resumes (tokens : List Token) : Resumes tokens where
  after_eq := by
    intro calls
    rw [← rest_after,
      ← (isWithin_after tokens calls).ending_eq]
  answer_eq := by
    intro calls
    exact (leaves_after tokens calls).1
  leaves := by
    intro calls
    exact (leaves_after tokens calls).2
  consumed_zero := Nat.sub_self tokens.length
  consumed_le := by
    intro calls
    have hLeaves := (isWithin_after tokens calls).leaves_read.2
    have hLength := hLeaves.suffix.length_le
    exact ⟨Nat.sub_le_sub_left hLength tokens.length,
      Nat.sub_le _ _⟩
  spent := by
    intro calls later hLater hAnswer
    have hLeaves := (leaves_after tokens calls).2
    apply answer_of_rest_nil ?_ hLater
    rw [rest_after]
    rcases hAnswer with
      ⟨song, hAnswer⟩ | ⟨expected, position, hAnswer⟩
    · rw [hAnswer] at hLeaves
      exact hLeaves.eq_nil_of_ok
    · rw [hAnswer] at hLeaves
      exact hLeaves.eq_nil_of_unexpected_none
  stuck := by
    intro calls later index found error hLater hAnswer hStops
      hFound hKind
    have hLeaves := (leaves_after tokens calls).2
    rw [hAnswer] at hLeaves
    have hLeft := hLeaves.eq_drop_of_stopsAt hStops
    rcases List.getElem?_eq_some_iff.mp hFound with
      ⟨hIndex, hToken⟩
    rw [List.drop_eq_getElem_cons hIndex, hToken,
      ← rest_after] at hLeft
    exact answer_of_rest_cons hLeft hKind hLater

/- A line with a gamaka too few, a line without svaras, and a
brace that no line wants: the second call begins behind the
first line and loses the second one to the brace. -/
example :
    let tokens : List Token :=
      [⟨.listStart, "\x7b", ⟨1, 1⟩⟩,
        ⟨.svaraName, "sa", ⟨1, 3⟩⟩,
        ⟨.listEnd, "\x7d", ⟨1, 6⟩⟩,
        ⟨.listStart, "\x7b", ⟨1, 8⟩⟩,
        ⟨.listEnd, "\x7d", ⟨1, 10⟩⟩,
        ⟨.listStart, "\x7b", ⟨2, 1⟩⟩,
        ⟨.listEnd, "\x7d", ⟨2, 3⟩⟩,
        ⟨.listStart, "\x7b", ⟨2, 5⟩⟩,
        ⟨.listEnd, "\x7d", ⟨2, 7⟩⟩,
        ⟨.listEnd, "\x7d", ⟨3, 1⟩⟩]
    let brace : SongError :=
      ⟨.unexpected .listStart (some "\x7d"), ⟨3, 1⟩⟩
    (List.range 4).map (ofTokens tokens).answer =
        [.error ⟨.unequalCounts 1 0, ⟨1, 1⟩⟩, .error brace,
          .error brace, .error brace] ∧
      (List.range 4).map (consumed tokens) = [0, 5, 9, 9] := by
  decide +kernel

end SongReader

end Carnatic
