import Carnatic.Proofs.Song.Place

/-
  Where tokens break the grammar.

  Tokens that write no song begin with some lines of one, and
  the line behind these is at fault: a token does not go on
  it, or the tokens end inside it, or its lists differ in
  length. This is the fault that reading reports.

  Main declarations:
    * `Line.Breaks`
    * `Song.Breaks`
    * `Song.ofTokens_eq_error_iff`
-/

------------------------------------------------------------
-- Broken Lines
------------------------------------------------------------

namespace Carnatic

namespace Line

/-
  The fault of tokens that begin with no balanced line. Some
  tokens of a line are followed by one that does not go on
  the line, in the place of a brace that opens or of a name.
  Or all tokens belong to a line that wants a brace to go on.
  Or there is a whole line with lists of unequal lengths.
-/
inductive Breaks : List Token → SongError → Prop
| token
    {begun : List Token}
    {missed found : Token}
    (hMissed : GoesOn begun missed)
    (hKind : missed.kind ≠ .listEnd)
    (hFound : ¬ GoesOn begun found)
    (rest : List Token) :
    Breaks (begun ++ found :: rest)
      ⟨.unexpected missed.kind (some found.word),
        found.position⟩
| ending
    {front : List Token}
    {last missed : Token}
    (hMissed : GoesOn (front ++ [last]) missed)
    (hKind :
      missed.kind = .listStart ∨ missed.kind = .listEnd) :
    Breaks (front ++ [last])
      ⟨.unexpected missed.kind none, last.position⟩
| counts
    {line : Line}
    {own : List Token}
    (hOwn : line.WrittenBy own)
    (hHolds : Svara.NoneContinues line.svaras.tail)
    (hLengths : line.svaras.length ≠ line.gamakas.length)
    (rest : List Token) :
    Breaks (own ++ rest)
      ⟨.unequalCounts line.svaras.length
        line.gamakas.length, line.position⟩

theorem ne_nil_of_writtenBy
    {line : Line}
    {own : List Token}
    (hOwn : line.WrittenBy own) :
    own ≠ [] := by
  rintro rfl
  exact line.not_writtenBy_nil hOwn

theorem ne_nil_of_breaks
    {tokens : List Token}
    {error : SongError}
    (hBreaks : Breaks tokens error) :
    tokens ≠ [] := by
  cases hBreaks with
  | token => simp
  | ending => simp
  | counts hOwn => simp [ne_nil_of_writtenBy hOwn]

/- The durations of written svaras count their tokens. -/
theorem duration_pos_of_written
    {svaras : List Svara}
    {tokens : List Token}
    (hWritten :
      WrittenInOrder Svara.WrittenBy svaras tokens) :
    ∀ svara ∈ svaras, 1 ≤ svara.duration := by
  induction hWritten with
  | nil => simp
  | cons hItem _ ih =>
      rcases hItem with ⟨holds, _, _, hDuration⟩
      refine List.forall_mem_cons.mpr ⟨?_, ih⟩
      omega

theorem duration_pos_of_writtenBy
    {line : Line}
    {own : List Token}
    (hOwn : line.WrittenBy own) :
    ∀ svara ∈ line.svaras, 1 ≤ svara.duration := by
  rcases hOwn with
    ⟨_, _, _, _, _, _, _, _, _, _, _, hSvaras⟩
  exact duration_pos_of_written hSvaras

/- A line is read as one of unequal lists exactly when such a
line is written there. -/
theorem ofTokens_eq_unequal_iff
    {first : Token}
    {rest behind : List Token}
    {position : Position}
    {svaras gamakas : Nat} :
    ofTokens first.position (first :: rest) =
        .error (.unequal position svaras gamakas behind) ↔
      ∃ (line : Line) (own : List Token),
        first :: rest = own ++ behind ∧
          line.WrittenBy own ∧
          Svara.NoneContinues line.svaras.tail ∧
          line.svaras.length ≠ line.gamakas.length ∧
          line.position = position ∧
          line.svaras.length = svaras ∧
          line.gamakas.length = gamakas := by
  constructor
  · intro hUnequal
    rcases ofTokens_cases first.position (first :: rest) with
      ⟨line, second, after, hSvaras, hGamakas, hPosition,
        hRead⟩ | ⟨misfit, _, hRead, _⟩
    · rcases lists_eq_ok_iff.mp
          ⟨second, hSvaras, hGamakas, hPosition⟩ with
        ⟨_, hHolds, own, hOwn, hWritten⟩
      rw [hRead] at hUnequal
      split at hUnequal
      · simp at hUnequal
      · rename_i hLengths
        cases hUnequal
        exact ⟨line, own, hOwn, hWritten, hHolds, hLengths,
          hPosition, rfl, rfl⟩
    · rw [hRead] at hUnequal
      simp at hUnequal
  · rintro ⟨line, own, hOwn, hWritten, hHolds, hLengths, rfl,
      rfl, rfl⟩
    have hDuration := duration_pos_of_writtenBy hWritten
    rcases lists_eq_ok_iff.mpr
        ⟨hDuration, hHolds, own, hOwn, hWritten⟩ with
      ⟨second, hSvaras, hGamakas, hPosition⟩
    unfold ofTokens
    simp [hSvaras, hGamakas, hLengths, hPosition]

------------------------------------------------------------
-- Errors About Broken Lines
------------------------------------------------------------

theorem ending_concat
    (front : List Token)
    (last : Token) :
    (SongReader.ofTokens (front ++ [last])).ending =
      last.position := by
  simp [SongReader.ofTokens]

/- A token that cannot stand where begun tokens lead does not
go on their line. Some other one does, and closes no list. -/
theorem exists_missed_of_next_eq_none
    {begun : List Token}
    {found : Token}
    {reached : Place}
    (hReached : reached ≠ .done)
    (hBegun : Place.opening.run begun = (reached, []))
    (hStops : reached.next found.kind = none) :
    ∃ missed : Token,
      missed.kind = reached.item ∧
        missed.kind ≠ .listEnd ∧
        GoesOn begun missed ∧
        ¬ GoesOn begun found := by
  rcases Place.exists_next_item hReached with
    ⟨hItem, following, hNext⟩
  refine ⟨⟨reached.item, "", Position.origin⟩, rfl, hItem,
    goesOn_iff.mpr ⟨reached, following, hBegun, hNext⟩, ?_⟩
  intro hGoesOn
  rcases goesOn_iff.mp hGoesOn with
    ⟨other, _, hOther, hStands⟩
  rw [hBegun, Prod.mk.injEq] at hOther
  rw [← hOther.1, hStops] at hStands
  simp at hStands

/- Where a run ends inside a line, the tokens break the line
there. -/
theorem breaks_of_run
    {tokens rest : List Token}
    {reached : Place}
    (hTokens : tokens ≠ [])
    (hReached : reached ≠ .done)
    (hRun : Place.opening.run tokens = (reached, rest)) :
    Breaks tokens
      ((SongReader.ofTokens tokens).errorOf
        (.misfit ⟨reached.missed rest, rest⟩)) := by
  rcases Place.exists_front_of_run hRun with
    ⟨begun, rfl, hBegun, hRest⟩
  cases rest with
  | nil =>
      rcases Place.exists_next_brace hReached with
        ⟨hBrace, following, hNext⟩
      rw [List.append_nil] at hTokens ⊢
      rcases List.eq_nil_or_concat begun with
        rfl | ⟨front, last, rfl⟩
      · exact absurd rfl hTokens
      · rw [List.concat_eq_append] at hBegun ⊢
        have hMissed :
            GoesOn (front ++ [last])
              ⟨reached.brace, "", Position.origin⟩ :=
          goesOn_iff.mpr ⟨reached, following, hBegun, hNext⟩
        have hBreaks := Breaks.ending hMissed hBrace
        rwa [← ending_concat front last] at hBreaks
  | cons found later =>
      rcases exists_missed_of_next_eq_none hReached hBegun
          (hRest found rfl) with
        ⟨missed, hItem, hKind, hMissed, hFound⟩
      have hBreaks := Breaks.token hMissed hKind hFound later
      rwa [hItem] at hBreaks

/- Tokens break a line exactly when no line is read off them,
and the break is what the error is about. -/
theorem breaks_iff
    {first : Token}
    {rest : List Token}
    {error : SongError} :
    Breaks (first :: rest) error ↔
      ∃ fault,
        ofTokens first.position (first :: rest) =
            .error fault ∧
          (SongReader.ofTokens (first :: rest)).errorOf fault =
            error := by
  constructor
  · intro hBreaks
    generalize hTokens : first :: rest = tokens at hBreaks ⊢
    cases hBreaks with
    | @token begun missed found hMissed hKind hFound later =>
        rcases goesOn_iff.mp hMissed with
          ⟨reached, following, hBegun, hNext⟩
        have hStops : reached.next found.kind = none := by
          rw [← Option.not_isSome_iff_eq_none,
            Option.isSome_iff_exists]
          rintro ⟨other, hStands⟩
          exact hFound
            (goesOn_iff.mpr ⟨reached, other, hBegun, hStands⟩)
        refine ⟨.misfit ⟨missed.kind, found :: later⟩, ?_, rfl⟩
        rw [ofTokens_eq_misfit_iff]
        refine ⟨reached, Place.ne_done_of_next hNext, ?_,
          Place.eq_item_of_next hNext hKind⟩
        rw [Place.run_append hBegun,
          Place.run_cons_of_none hStops]
    | @ending front last missed hMissed hKind =>
        rcases goesOn_iff.mp hMissed with
          ⟨reached, following, hBegun, hNext⟩
        refine ⟨.misfit ⟨missed.kind, []⟩, ?_, ?_⟩
        · rw [ofTokens_eq_misfit_iff]
          exact ⟨reached, Place.ne_done_of_next hNext, hBegun,
            Place.eq_brace_of_next hNext hKind⟩
        · rw [← ending_concat front last]
          rfl
    | @counts line own hOwn hHolds hLengths later =>
        refine ⟨.unequal line.position line.svaras.length
          line.gamakas.length later, ?_, rfl⟩
        rw [← hTokens, ofTokens_eq_unequal_iff]
        exact ⟨line, own, hTokens, hOwn, hHolds, hLengths,
          rfl, rfl, rfl⟩
  · rintro ⟨fault, hRead, rfl⟩
    cases fault with
    | misfit misfit =>
        rcases ofTokens_eq_misfit_iff.mp hRead with
          ⟨reached, hReached, hRun, hMissed⟩
        have hBreaks :=
          breaks_of_run (by simp) hReached hRun
        rwa [← hMissed] at hBreaks
    | unequal position svaras gamakas behind =>
        rcases ofTokens_eq_unequal_iff.mp hRead with
          ⟨line, own, hOwn, hWritten, hHolds, hLengths, rfl,
            rfl, rfl⟩
        have hBreaks :=
          Breaks.counts hWritten hHolds hLengths behind
        rw [← hOwn] at hBreaks
        exact hBreaks

end Line

------------------------------------------------------------
-- Broken Songs
------------------------------------------------------------

namespace Song

/- The fault of tokens that write no song: they go on behind
some whole lines with a line that is broken. -/
def Breaks
    (tokens : List Token)
    (error : SongError) : Prop :=
  ∃ (song : Song) (own behind : List Token),
    song.IsBalanced ∧
      song.WrittenBy own ∧
      tokens = own ++ behind ∧
      Line.Breaks behind error

/- Reading fails at a line behind some balanced ones. -/
theorem linesOf_eq_error_iff
    {tokens : List Token}
    {fault : Line.Fault} :
    linesOf tokens = .error fault ↔
      ∃ (song : Song) (own : List Token) (first : Token)
          (rest : List Token),
        song.IsBalanced ∧
          song.WrittenBy own ∧
          tokens = own ++ first :: rest ∧
          Line.ofTokens first.position (first :: rest) =
            .error fault := by
  constructor
  · intro hRead
    fun_induction linesOf tokens with
    | case1 => simp at hRead
    | case2 token rest other hLine =>
        cases hRead
        exact ⟨⟨[]⟩, [], token, rest,
          by simp [IsBalanced], .nil, rfl, hLine⟩
    | case3 => simp at hRead
    | case4 token rest line behind hLine other hLater ih =>
        cases hRead
        rcases Line.ofTokens_eq_ok_iff.mp hLine with
          ⟨hBalanced, own, hTokens, hOwn⟩
        rcases ih hLater with
          ⟨song, later, first, after, hSong, hWritten, rfl,
            hFault⟩
        refine ⟨⟨line :: song.lines⟩, own ++ later, first,
          after, ?_, .cons hOwn hWritten, ?_, hFault⟩
        · exact List.forall_mem_cons.mpr ⟨hBalanced, hSong⟩
        · rw [hTokens, List.append_assoc]
  · rintro ⟨⟨lines⟩, own, first, rest, hBalanced, hWritten,
      rfl, hFault⟩
    have hLater : linesOf (first :: rest) = .error fault := by
      rw [linesOf_cons, hFault]
    rw [linesOf_append_of_written hBalanced hWritten, hLater]

/- Errors at the end of the tokens do not depend on what is in
front. -/
theorem errorOf_append
    (own : List Token)
    {behind : List Token}
    (hBehind : behind ≠ [])
    (fault : Line.Fault) :
    (SongReader.ofTokens (own ++ behind)).errorOf fault =
      (SongReader.ofTokens behind).errorOf fault := by
  have hEnding :
      (SongReader.ofTokens (own ++ behind)).ending =
        (SongReader.ofTokens behind).ending := by
    rcases List.eq_nil_or_concat behind with
      rfl | ⟨front, last, rfl⟩
    · exact absurd rfl hBehind
    · rw [List.concat_eq_append, ← List.append_assoc,
        Line.ending_concat, Line.ending_concat]
  cases fault with
  | misfit misfit =>
      rcases misfit with ⟨expected, _ | ⟨token, rest⟩⟩
      · simp only [SongReader.errorOf, hEnding]
      · rfl
  | unequal => rfl

/- Tokens that write no song are reported with the fault that
breaks them first. -/
theorem ofTokens_eq_error_iff
    {tokens : List Token}
    {error : SongError} :
    ofTokens tokens = .error error ↔ Breaks tokens error := by
  have hRead :
      ofTokens tokens = .error error ↔
        ∃ fault,
          linesOf tokens = .error fault ∧
            (SongReader.ofTokens tokens).errorOf fault =
              error := by
    unfold ofTokens SongReader.read SongReader.ofTokens
    cases hLines : linesOf tokens with
    | error fault => simp
    | ok lines => simp
  rw [hRead]
  simp only [linesOf_eq_error_iff]
  constructor
  · rintro ⟨fault, ⟨song, own, first, rest, hBalanced,
      hWritten, rfl, hFault⟩, hError⟩
    rw [errorOf_append own (by simp)] at hError
    exact ⟨song, own, first :: rest, hBalanced, hWritten, rfl,
      Line.breaks_iff.mpr ⟨fault, hFault, hError⟩⟩
  · rintro ⟨song, own, behind, hBalanced, hWritten, rfl,
      hBreaks⟩
    rcases List.exists_cons_of_ne_nil
        (Line.ne_nil_of_breaks hBreaks) with
      ⟨first, rest, rfl⟩
    rcases Line.breaks_iff.mp hBreaks with
      ⟨fault, hFault, hError⟩
    refine ⟨fault, ⟨song, own, first, rest, hBalanced,
      hWritten, rfl, hFault⟩, ?_⟩
    rw [errorOf_append own (by simp), hError]

theorem Breaks.stage_eq
    {tokens : List Token}
    {error : SongError}
    (hBreaks : Breaks tokens error) :
    error.stage = .grammar := by
  rcases hBreaks with ⟨_, _, _, _, _, _, hLine⟩
  cases hLine <;> rfl

end Song

end Carnatic
