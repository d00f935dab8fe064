import Carnatic.Proofs.Reading.First
import Carnatic.Proofs.Song.Breaks

/-
  Errors at the earliest token.

  Tokens have a shape when they are those of some lines, each
  with any numbers of svaras and gamakas. Where tokens write
  no song, the error is about the first token that ends every
  hope for a shape, or about the end of tokens that want more
  for one, or about the first whole line that has unequal
  counts. It is always just one of the three.

  Main declarations:
    * `Token.AreShaped`, `Token.AreBegun` and `Token.AreEven`
    * `Song.StopsAt`, `Song.EndsInside` and `Song.IsUneven`
    * `Song.ReportsEarliest`
    * `Song.reportsEarliest`
-/

------------------------------------------------------------
-- Shapes
------------------------------------------------------------

namespace Carnatic

theorem Line.isBalanced_iff {line : Line} :
    line.IsBalanced ↔
      line.IsShaped ∧
        line.svaras.length = line.gamakas.length := by
  constructor
  · rintro ⟨hLengths, hDuration, hNone⟩
    exact ⟨⟨hDuration, hNone⟩, hLengths⟩
  · rintro ⟨⟨hDuration, hNone⟩, hLengths⟩
    exact ⟨hLengths, hDuration, hNone⟩

namespace Song

/- Every line of a song is balanced but for its counts. -/
def IsShaped (song : Song) : Prop :=
  ∀ line ∈ song.lines, line.IsShaped

/- Every line of a song has as many svaras as gamakas. -/
def IsEven (song : Song) : Prop :=
  ∀ line ∈ song.lines,
    line.svaras.length = line.gamakas.length

theorem isBalanced_iff {song : Song} :
    song.IsBalanced ↔ song.IsShaped ∧ song.IsEven := by
  simp only [IsBalanced, Line.isBalanced_iff]
  exact forall₂_and

end Song

namespace Token

/- Tokens that write lines of any counts. -/
def AreShaped (tokens : List Token) : Prop :=
  ∃ song : Song, song.IsShaped ∧ song.WrittenBy tokens

/- Tokens that begin some tokens with a shape. -/
def AreBegun (tokens : List Token) : Prop :=
  ∃ more, AreShaped (tokens ++ more)

/- Every line that is whole in some tokens has as many svaras
as gamakas. -/
def AreEven (tokens : List Token) : Prop :=
  ∀ (song : Song) (front : List Token),
    song.IsShaped →
      song.WrittenBy front →
        front <+: tokens →
          song.IsEven

theorem AreShaped.append
    {own more : List Token}
    (hOwn : AreShaped own)
    (hMore : AreShaped more) :
    AreShaped (own ++ more) := by
  rcases hOwn with ⟨song, hSong, hWritten⟩
  rcases hMore with ⟨later, hLater, hLaterWritten⟩
  exact ⟨⟨song.lines ++ later.lines⟩,
    List.forall_mem_append.mpr ⟨hSong, hLater⟩,
    WrittenInOrder.append hWritten hLaterWritten⟩

/- A written line is a shape. -/
theorem areShaped_of_writtenBy
    {line : Line}
    {own : List Token}
    (hOwn : line.WrittenBy own) :
    AreShaped own := by
  rcases Line.exists_shaped_of_run (Line.run_of_writtenBy hOwn)
    with ⟨shaped, hShaped, hWritten⟩
  have hSong := WrittenInOrder.cons hWritten .nil
  rw [List.append_nil] at hSong
  exact ⟨⟨[shaped]⟩, by simpa [Song.IsShaped] using hShaped,
    hSong⟩

/- For a shape it does not matter which continuations are taken
as holds. -/
theorem areShaped_iff {tokens : List Token} :
    AreShaped tokens ↔ ∃ song : Song, song.WrittenBy tokens := by
  constructor
  · rintro ⟨song, _, hWritten⟩
    exact ⟨song, hWritten⟩
  · rintro ⟨⟨lines⟩, hWritten⟩
    unfold Song.WrittenBy at hWritten
    dsimp only at hWritten
    induction hWritten with
    | nil => exact ⟨⟨[]⟩, by simp [Song.IsShaped], .nil⟩
    | cons hLine _ ih =>
        exact (areShaped_of_writtenBy hLine).append ih

theorem AreBegun.of_append
    {tokens more : List Token}
    (hBegun : AreBegun (tokens ++ more)) :
    AreBegun tokens := by
  rcases hBegun with ⟨rest, hShaped⟩
  rw [List.append_assoc] at hShaped
  exact ⟨more ++ rest, hShaped⟩

theorem AreEven.mono
    {tokens front : List Token}
    (hEven : AreEven tokens)
    (hFront : front <+: tokens) :
    AreEven front := by
  intro song own hShaped hWritten hOwn
  exact hEven song own hShaped hWritten (hOwn.trans hFront)

/- A token that goes on a line goes on behind whole lines. -/
theorem areBegun_of_goesOn
    {own begun : List Token}
    {token : Token}
    (hOwn : AreShaped own)
    (hGoesOn : Line.GoesOn begun token) :
    AreBegun (own ++ begun ++ [token]) := by
  rcases hGoesOn with ⟨line, more, hWritten⟩
  refine ⟨more, ?_⟩
  simpa using hOwn.append (areShaped_of_writtenBy hWritten)

/- A token of two parts stands in the second one, or it stands
in the first. -/
theorem exists_part_of_append
    {front more own behind : List Token}
    {token : Token}
    (hTokens : front ++ token :: more = own ++ behind) :
    (∃ later,
        front = own ++ later ∧
          later ++ token :: more = behind) ∨
      ∃ after, own = front ++ token :: after := by
  rcases List.append_eq_append_iff.mp hTokens with
    ⟨after, hOwn, hAfter⟩ | ⟨later, hFront, hLater⟩
  · cases after with
    | nil =>
        rw [List.append_nil] at hOwn
        exact .inl ⟨[], by rw [List.append_nil, hOwn], hAfter⟩
    | cons next after =>
        rw [List.cons_append, List.cons.injEq] at hAfter
        exact .inr ⟨after, by rw [hOwn, hAfter.1]⟩
  · exact .inl ⟨later, hFront, hLater.symm⟩

/- A token of written lines goes on a line behind the whole
lines in front of it. -/
theorem exists_goesOn_of_written
    {lines : List Line}
    {front more : List Token}
    {token : Token}
    (hLines : ∀ line ∈ lines, line.IsShaped)
    (hWritten :
      WrittenInOrder Line.WrittenBy lines
        (front ++ token :: more)) :
    ∃ (song : Song) (own begun : List Token),
      song.IsShaped ∧
        song.WrittenBy own ∧
        front = own ++ begun ∧
        Line.GoesOn begun token := by
  generalize hTokens : front ++ token :: more = tokens
    at hWritten
  induction hWritten generalizing front with
  | nil => simp at hTokens
  | @cons line rest own behind hOwn _ ih =>
      rcases List.forall_mem_cons.mp hLines with
        ⟨hLine, hLater⟩
      rcases exists_part_of_append hTokens with
        ⟨later, rfl, hBehind⟩ | ⟨after, rfl⟩
      · rcases ih hLater hBehind with
          ⟨song, others, begun, hSong, hOthers, rfl, hGoesOn⟩
        exact ⟨⟨line :: song.lines⟩, own ++ others, begun,
          List.forall_mem_cons.mpr ⟨hLine, hSong⟩,
          .cons hOwn hOthers, (List.append_assoc ..).symm,
          hGoesOn⟩
      · exact ⟨⟨[]⟩, [], front, by simp [Song.IsShaped], .nil,
          rfl, line, after, hOwn⟩

/- A token behind which some tokens have a shape goes on a line
behind whole lines. -/
theorem AreBegun.exists_goesOn
    {front : List Token}
    {token : Token}
    (hBegun : AreBegun (front ++ [token])) :
    ∃ (song : Song) (own begun : List Token),
      song.IsShaped ∧
        song.WrittenBy own ∧
        front = own ++ begun ∧
        Line.GoesOn begun token := by
  rcases hBegun with ⟨more, song, hSong, hWritten⟩
  rw [List.append_assoc] at hWritten
  exact exists_goesOn_of_written hSong hWritten

end Token

------------------------------------------------------------
-- Reading Shapes
------------------------------------------------------------

namespace Song

variable {tokens : List Token}
variable {error : SongError}

/- Behind whole lines, the first one with unequal counts is
reported, whatever follows it. -/
theorem exists_unequal_of_not_isEven
    {song : Song}
    {own : List Token}
    (hShaped : song.IsShaped)
    (hWritten : song.WrittenBy own)
    (hUneven : ¬ song.IsEven)
    (behind : List Token) :
    ∃ svaras gamakas position,
      ofTokens (own ++ behind) =
        .error ⟨.unequalCounts svaras gamakas, position⟩ := by
  rcases exists_isFirstWithout hUneven with
    ⟨line, before, after, hLines, hBefore, hLengths⟩
  unfold WrittenBy at hWritten
  unfold IsShaped at hShaped
  rw [hLines] at hShaped hWritten
  rcases List.forall_mem_append.mp hShaped with
    ⟨hFront, hLater⟩
  rcases hWritten.exists_of_append with
    ⟨front, later, rfl, hFrontWritten, hLaterWritten⟩
  cases hLaterWritten with
  | @cons _ _ lineOwn rest hLine _ =>
      have hBalanced : IsBalanced ⟨before⟩ :=
        isBalanced_iff.mpr ⟨hFront, hBefore⟩
      have hBreaks := Line.Breaks.counts hLine
        (hLater line (by simp)).noneContinues hLengths
        (rest ++ behind)
      refine ⟨_, _, _, ofTokens_eq_error_iff.mpr
        ⟨⟨before⟩, front, _, hBalanced, hFrontWritten, ?_,
          hBreaks⟩⟩
      simp

/- Tokens with a shape can only have unequal counts. -/
theorem exists_unequal_of_areShaped
    (hShaped : Token.AreShaped tokens)
    (hError : ofTokens tokens = .error error) :
    ∃ svaras gamakas,
      error.cause = .unequalCounts svaras gamakas := by
  rcases hShaped with ⟨song, hSong, hWritten⟩
  by_cases hEven : song.IsEven
  · have hOk := ofTokens_eq_ok_iff.mpr
      ⟨isBalanced_iff.mpr ⟨hSong, hEven⟩, hWritten⟩
    rw [hOk] at hError
    cases hError
  · rcases exists_unequal_of_not_isEven hSong hWritten hEven []
      with ⟨svaras, gamakas, position, hUnequal⟩
    rw [List.append_nil, hError,
      Except.error.injEq] at hUnequal
    exact ⟨svaras, gamakas, by rw [hUnequal]⟩

/- Where a token is missed, all whole lines have equal
counts. -/
theorem areEven_of_unexpected
    {expected : TokenKind}
    {found : Option String}
    {position : Position}
    (hError :
      ofTokens tokens =
        .error ⟨.unexpected expected found, position⟩) :
    Token.AreEven tokens := by
  rintro song own hShaped hWritten ⟨behind, rfl⟩
  by_contra hUneven
  rcases exists_unequal_of_not_isEven hShaped hWritten hUneven
    behind with ⟨svaras, gamakas, place, hUnequal⟩
  rw [hError] at hUnequal
  cases hUnequal

theorem not_areShaped_of_unexpected
    {expected : TokenKind}
    {found : Option String}
    {position : Position}
    (hError :
      ofTokens tokens =
        .error ⟨.unexpected expected found, position⟩) :
    ¬ Token.AreShaped tokens := by
  intro hShaped
  rcases exists_unequal_of_areShaped hShaped hError with
    ⟨svaras, gamakas, hCause⟩
  cases hCause

------------------------------------------------------------
-- Three Faults
------------------------------------------------------------

/-
  The token at an index ends every hope for a shape. The
  tokens in front of it begin one, and would go on with some
  token that is missed here and closes no list.
-/
structure StopsAt
    (tokens : List Token)
    (index : Nat)
    (error : SongError) : Prop where
  even : Token.AreEven (tokens.take index)
  begun : Token.AreBegun (tokens.take index)
  stops : ¬ Token.AreBegun (tokens.take (index + 1))
  error_eq :
    ∃ found missed : Token,
      tokens[index]? = some found ∧
        Token.AreBegun (tokens.take index ++ [missed]) ∧
        missed.kind ≠ .listEnd ∧
        error =
          ⟨.unexpected missed.kind (some found.word),
            found.position⟩

/-
  All tokens begin a shape, and they want more for one. A
  brace is missed behind the last of them.
-/
structure EndsInside
    (tokens : List Token)
    (error : SongError) : Prop where
  even : Token.AreEven tokens
  begun : ∃ more ≠ [], Token.AreShaped (tokens ++ more)
  unfinished : ¬ Token.AreShaped tokens
  error_eq :
    ∃ last missed : Token,
      tokens.getLast? = some last ∧
        Token.AreBegun (tokens ++ [missed]) ∧
        (missed.kind = .listStart ∨
          missed.kind = .listEnd) ∧
        error = ⟨.unexpected missed.kind none, last.position⟩

/-
  A line between two braces, behind whole lines of equal
  counts, has unequal counts. What follows it does not matter.
-/
inductive IsUneven : List Token → SongError → Prop
| line
    {song : Song}
    {line : Line}
    {own inner : List Token}
    {opening closing : Token}
    (hShaped : song.IsShaped)
    (hEven : song.IsEven)
    (hOwn : song.WrittenBy own)
    (hLineShaped : line.IsShaped)
    (hLine : line.WrittenBy (opening :: inner ++ [closing]))
    (hOpening : opening.kind = .listStart)
    (hClosing : closing.kind = .listEnd)
    (hLengths : line.svaras.length ≠ line.gamakas.length)
    (behind : List Token) :
    IsUneven
      (own ++ (opening :: inner ++ [closing]) ++ behind)
      ⟨.unequalCounts line.svaras.length
        line.gamakas.length, opening.position⟩

/- A token that does not go on a line ends every hope. -/
theorem stopsAt_of_not_goesOn
    {song : Song}
    {own begun : List Token}
    {missed found : Token}
    (hBalanced : song.IsBalanced)
    (hWritten : song.WrittenBy own)
    (hMissed : Line.GoesOn begun missed)
    (hKind : missed.kind ≠ .listEnd)
    (hFound : ¬ Line.GoesOn begun found)
    (rest : List Token) :
    StopsAt (own ++ begun ++ found :: rest)
      (own ++ begun).length
      ⟨.unexpected missed.kind (some found.word),
        found.position⟩ := by
  have hError :
      ∀ more,
        ofTokens (own ++ begun ++ found :: more) =
          .error
            ⟨.unexpected missed.kind (some found.word),
              found.position⟩ := by
    intro more
    rw [List.append_assoc]
    exact ofTokens_eq_error_iff.mpr
      ⟨song, own, _, hBalanced, hWritten, rfl,
        .token hMissed hKind hFound more⟩
  have hOwn : Token.AreShaped own :=
    ⟨song, (isBalanced_iff.mp hBalanced).1, hWritten⟩
  have hGoesOn := Token.areBegun_of_goesOn hOwn hMissed
  have hTake :
      (own ++ begun ++ found :: rest).take
          ((own ++ begun).length + 1) =
        own ++ begun ++ [found] := by
    rw [List.take_length_add_append]
    rfl
  refine ⟨?_, ?_, ?_, found, missed, ?_, ?_, hKind, rfl⟩
  · have hEven := areEven_of_unexpected (hError rest)
    rw [List.take_left]
    exact hEven.mono (List.prefix_append _ _)
  · rw [List.take_left]
    exact hGoesOn.of_append
  · rw [hTake]
    rintro ⟨more, hShaped⟩
    rw [List.append_assoc] at hShaped
    exact not_areShaped_of_unexpected (hError more) hShaped
  · rw [List.getElem?_append_right (Nat.le_refl _),
      Nat.sub_self, List.getElem?_cons_zero]
  · rw [List.take_left]
    exact hGoesOn

/- Where a token ends every hope, tokens break the grammar
there. -/
theorem StopsAt.breaks
    {index : Nat}
    (hStops : StopsAt tokens index error) :
    Breaks tokens error := by
  rcases hStops.error_eq with
    ⟨found, missed, hFound, hMissed, hKind, rfl⟩
  rcases hMissed.exists_goesOn with
    ⟨song, own, begun, hShaped, hWritten, hFront, hGoesOn⟩
  have hEven : song.IsEven := by
    refine hStops.even song own hShaped hWritten ?_
    rw [hFront]
    exact List.prefix_append own begun
  have hNot : ¬ Line.GoesOn begun found := by
    intro hGoes
    apply hStops.stops
    rw [List.take_add_one, hFound, hFront]
    exact Token.areBegun_of_goesOn ⟨song, hShaped, hWritten⟩
      hGoes
  have hBreaks :=
    Line.Breaks.token hGoesOn hKind hNot
      (tokens.drop (index + 1))
  refine ⟨song, own, _,
    isBalanced_iff.mpr ⟨hShaped, hEven⟩, hWritten, ?_,
    hBreaks⟩
  rcases List.getElem?_eq_some_iff.mp hFound with
    ⟨hIndex, rfl⟩
  rw [List.getElem_cons_drop, ← List.append_assoc, ← hFront,
    List.take_append_drop]

/- Tokens that end inside a line want more for a shape. -/
theorem endsInside_of_goesOn
    {song : Song}
    {own front : List Token}
    {last missed : Token}
    (hBalanced : song.IsBalanced)
    (hWritten : song.WrittenBy own)
    (hMissed : Line.GoesOn (front ++ [last]) missed)
    (hKind :
      missed.kind = .listStart ∨ missed.kind = .listEnd) :
    EndsInside (own ++ (front ++ [last]))
      ⟨.unexpected missed.kind none, last.position⟩ := by
  have hError := ofTokens_eq_error_iff.mpr
    ⟨song, own, _, hBalanced, hWritten, rfl,
      .ending hMissed hKind⟩
  have hOwn : Token.AreShaped own :=
    ⟨song, (isBalanced_iff.mp hBalanced).1, hWritten⟩
  have hGoesOn := Token.areBegun_of_goesOn hOwn hMissed
  refine ⟨areEven_of_unexpected hError, ?_,
    not_areShaped_of_unexpected hError, last, missed, ?_,
    hGoesOn, hKind, rfl⟩
  · rcases hGoesOn with ⟨more, hShaped⟩
    rw [List.append_assoc] at hShaped
    exact ⟨[missed] ++ more, by simp, hShaped⟩
  · rw [← List.append_assoc, List.getLast?_concat]

/- Where tokens end inside a line, they break the grammar at
their end. -/
theorem EndsInside.breaks
    (hEnds : EndsInside tokens error) :
    Breaks tokens error := by
  rcases hEnds.error_eq with
    ⟨last, missed, hLast, hMissed, hKind, rfl⟩
  rcases hMissed.exists_goesOn with
    ⟨song, own, begun, hShaped, hWritten, rfl, hGoesOn⟩
  have hEven := hEnds.even song own hShaped hWritten
    (List.prefix_append own begun)
  have hBalanced := isBalanced_iff.mpr ⟨hShaped, hEven⟩
  rcases List.eq_nil_or_concat begun with
    rfl | ⟨front, other, rfl⟩
  · -- The lines would be all that there is.
    rw [List.append_nil] at hEnds
    exact absurd ⟨song, hShaped, hWritten⟩ hEnds.unfinished
  · rw [List.concat_eq_append] at hGoesOn hLast ⊢
    rw [← List.append_assoc, List.getLast?_concat,
      Option.some.injEq] at hLast
    subst hLast
    exact ⟨song, own, _, hBalanced, hWritten, rfl,
      .ending hGoesOn hKind⟩

theorem isUneven_of_lengths
    {song : Song}
    {line : Line}
    {own lineOwn : List Token}
    (hBalanced : song.IsBalanced)
    (hWritten : song.WrittenBy own)
    (hLine : line.WrittenBy lineOwn)
    (hNone : Svara.NoneContinues line.svaras.tail)
    (hLengths : line.svaras.length ≠ line.gamakas.length)
    (rest : List Token) :
    IsUneven (own ++ (lineOwn ++ rest))
      ⟨.unequalCounts line.svaras.length
        line.gamakas.length, line.position⟩ := by
  rcases isBalanced_iff.mp hBalanced with ⟨hShaped, hEven⟩
  have hDuration := Line.duration_pos_of_writtenBy hLine
  rcases Line.exists_braces_of_writtenBy hLine with
    ⟨opening, inner, closing, rfl, hOpening, hPosition,
      hClosing⟩
  rw [← List.append_assoc, ← hPosition]
  exact .line hShaped hEven hWritten ⟨hDuration, hNone⟩ hLine
    hOpening hClosing hLengths rest

theorem IsUneven.breaks
    (hUneven : IsUneven tokens error) :
    Breaks tokens error := by
  cases hUneven with
  | @line song line own inner opening closing hShaped hEven
      hOwn hLineShaped hLine hOpening hClosing hLengths
      behind =>
      have hPosition : opening.position = line.position := by
        rcases hLine with
          ⟨first, _, _, _, _, hTokens, _, hFirst, _⟩
        rw [← hFirst]
        simp only [List.cons_append,
          List.cons.injEq] at hTokens
        rw [hTokens.1]
      rw [hPosition, List.append_assoc]
      exact ⟨song, own, _,
        isBalanced_iff.mpr ⟨hShaped, hEven⟩, hOwn, rfl,
        .counts hLine hLineShaped.noneContinues hLengths
          behind⟩

------------------------------------------------------------
-- Every List Of Tokens
------------------------------------------------------------

/-
  Tokens that write no song have one of the three faults, and
  its error. No tokens have two of them.
-/
structure ReportsEarliest (tokens : List Token) : Prop where
  rejects :
    ∀ error : SongError,
      ofTokens tokens = .error error ↔
        (∃ index, StopsAt tokens index error) ∨
          EndsInside tokens error ∨
          IsUneven tokens error
  not_stops_and_ends :
    ∀ index error other,
      StopsAt tokens index error →
        ¬ EndsInside tokens other
  not_stops_and_uneven :
    ∀ index error other,
      StopsAt tokens index error →
        ¬ IsUneven tokens other
  not_ends_and_uneven :
    ∀ error other,
      EndsInside tokens error → ¬ IsUneven tokens other

theorem ofTokens_eq_error_iff_earliest :
    ofTokens tokens = .error error ↔
      (∃ index, StopsAt tokens index error) ∨
        EndsInside tokens error ∨
        IsUneven tokens error := by
  rw [ofTokens_eq_error_iff]
  constructor
  · rintro ⟨song, own, behind, hBalanced, hWritten, rfl,
      hBreaks⟩
    cases hBreaks with
    | @token begun missed found hMissed hKind hFound rest =>
        rw [← List.append_assoc]
        exact .inl ⟨_, stopsAt_of_not_goesOn hBalanced
          hWritten hMissed hKind hFound rest⟩
    | ending hMissed hKind =>
        exact .inr (.inl
          (endsInside_of_goesOn hBalanced hWritten hMissed
            hKind))
    | counts hLine hNone hLengths rest =>
        exact .inr (.inr
          (isUneven_of_lengths hBalanced hWritten hLine hNone
            hLengths rest))
  · rintro (⟨index, hStops⟩ | hEnds | hUneven)
    · exact hStops.breaks
    · exact hEnds.breaks
    · exact hUneven.breaks

/- Reading has one answer. -/
theorem eq_of_breaks
    {other : SongError}
    (hBreaks : Breaks tokens error)
    (hOther : Breaks tokens other) :
    error = other := by
  have hError := ofTokens_eq_error_iff.mpr hBreaks
  rwa [ofTokens_eq_error_iff.mpr hOther,
    Except.error.injEq, eq_comm] at hError

/- Every list of tokens that writes no song is reported at the
earliest token. -/
theorem reportsEarliest (tokens : List Token) :
    ReportsEarliest tokens where
  rejects := by
    intro error
    exact ofTokens_eq_error_iff_earliest
  not_stops_and_ends := by
    intro index error other hStops hEnds
    have hSame := eq_of_breaks hStops.breaks hEnds.breaks
    rcases hStops.error_eq with ⟨_, _, _, _, _, rfl⟩
    rcases hEnds.error_eq with ⟨_, _, _, _, _, rfl⟩
    simp at hSame
  not_stops_and_uneven := by
    intro index error other hStops hUneven
    have hSame := eq_of_breaks hStops.breaks hUneven.breaks
    rcases hStops.error_eq with ⟨_, _, _, _, _, rfl⟩
    cases hUneven
    simp at hSame
  not_ends_and_uneven := by
    intro error other hEnds hUneven
    have hSame := eq_of_breaks hEnds.breaks hUneven.breaks
    rcases hEnds.error_eq with ⟨_, _, _, _, _, rfl⟩
    cases hUneven
    simp at hSame

end Song

end Carnatic
