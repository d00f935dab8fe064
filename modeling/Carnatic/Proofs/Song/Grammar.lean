import Carnatic.Proofs.Reading.First
import Carnatic.Song.Reader

/-
  How tokens write a song.

  A song is written line by line, and a line as two lists in
  braces. A svara takes its name and a continuation for every
  further unit, a gamaka its name alone. The reader accepts
  exactly the tokens that write a song, and reads this song.

  Main declarations:
    * `WrittenInOrder`
    * `Line.IsBalanced`
    * `Line.WrittenBy`
    * `Line.ofTokens_eq_ok_iff`
    * `Song.ofTokens_eq_ok_iff`
    * `Song.exists_lines_append`
-/

------------------------------------------------------------
-- Written Forms
------------------------------------------------------------

namespace Carnatic

/- Tokens that write items one after the other, where it is
given which tokens write one item. -/
inductive WrittenInOrder
    {α : Type}
    (writtenBy : α → List Token → Prop) :
    List α → List Token → Prop
| nil : WrittenInOrder writtenBy [] []
| cons
    {item : α}
    {rest : List α}
    {own behind : List Token}
    (hItem : writtenBy item own)
    (hRest : WrittenInOrder writtenBy rest behind) :
    WrittenInOrder writtenBy (item :: rest) (own ++ behind)

/- Items are written behind others. -/
theorem WrittenInOrder.append
    {α : Type}
    {writtenBy : α → List Token → Prop}
    {items later : List α}
    {own more : List Token}
    (hOwn : WrittenInOrder writtenBy items own)
    (hMore : WrittenInOrder writtenBy later more) :
    WrittenInOrder writtenBy (items ++ later)
      (own ++ more) := by
  induction hOwn with
  | nil => exact hMore
  | cons hItem _ ih =>
      rw [List.append_assoc]
      exact .cons hItem ih

/- Where items are written, the first ones are written in
front of the others. -/
theorem WrittenInOrder.exists_of_append
    {α : Type}
    {writtenBy : α → List Token → Prop}
    {items later : List α}
    {tokens : List Token}
    (hWritten :
      WrittenInOrder writtenBy (items ++ later) tokens) :
    ∃ own more,
      tokens = own ++ more ∧
        WrittenInOrder writtenBy items own ∧
        WrittenInOrder writtenBy later more := by
  induction items generalizing tokens with
  | nil => exact ⟨[], tokens, rfl, .nil, hWritten⟩
  | cons item rest ih =>
      cases hWritten with
      | @cons _ _ first behind hItem hRest =>
          rcases ih hRest with
            ⟨own, more, rfl, hOwn, hMore⟩
          exact ⟨first ++ own, more,
            (List.append_assoc ..).symm, .cons hItem hOwn,
            hMore⟩

/- The token of a svara's name. -/
def Svara.token (svara : Svara) : Token :=
  ⟨.svaraName, svara.name, svara.position⟩

/- A svara is its name and a continuation for every unit but
the first. -/
def Svara.WrittenBy
    (svara : Svara)
    (tokens : List Token) : Prop :=
  ∃ holds,
    tokens = svara.token :: holds ∧
      (∀ hold ∈ holds, hold.isContinuation = true) ∧
      holds.length + 1 = svara.duration

/- The token of a gamaka. -/
def Gamaka.token (gamaka : Gamaka) : Token :=
  ⟨.gamakaName, gamaka.name, gamaka.position⟩

/- Behind another svara, a continuation would be a hold of
it. -/
def Svara.NoneContinues (svaras : List Svara) : Prop :=
  ∀ svara ∈ svaras, svara.isContinuation = false

namespace Line

/-
  A line that tokens can write: as many svaras as gamakas,
  every svara with a unit at least, and no continuation but
  in the first place.
-/
structure IsBalanced (line : Line) : Prop where
  length_eq : line.svaras.length = line.gamakas.length
  duration_pos : ∀ svara ∈ line.svaras, 1 ≤ svara.duration
  noneContinues : Svara.NoneContinues line.svaras.tail

/- A line is its svaras and its gamakas, each list in braces,
and stands where its first brace does. -/
def WrittenBy
    (line : Line)
    (tokens : List Token) : Prop :=
  ∃ first firstEnd second secondEnd svaraTokens,
    tokens =
        first :: svaraTokens ++
          firstEnd :: second ::
            line.gamakas.map Gamaka.token ++
              [secondEnd] ∧
      first.kind = .listStart ∧
      first.position = line.position ∧
      firstEnd.kind = .listEnd ∧
      second.kind = .listStart ∧
      secondEnd.kind = .listEnd ∧
      WrittenInOrder Svara.WrittenBy line.svaras svaraTokens

end Line

namespace Song

/- Every line of a song can be written. -/
def IsBalanced (song : Song) : Prop :=
  ∀ line ∈ song.lines, line.IsBalanced

/- A song is its lines in order. -/
def WrittenBy
    (song : Song)
    (tokens : List Token) : Prop :=
  WrittenInOrder Line.WrittenBy song.lines tokens

end Song

------------------------------------------------------------
-- Lists Of Svaras
------------------------------------------------------------

namespace Line

theorem isContinuation_token (svara : Svara) :
    svara.token.isContinuation = svara.isContinuation := by
  unfold Token.isContinuation Svara.isContinuation
  simp only [Svara.token, decide_true, Bool.true_and]
  rfl

/- The first token behind a brace or a svara is no hold when
the next svara is no continuation. -/
theorem head?_svaras_not_continuation
    {svaras : List Svara}
    {own behind : List Token}
    {closing : Token}
    (hWritten : WrittenInOrder Svara.WrittenBy svaras own)
    (hNone : Svara.NoneContinues svaras)
    (hClosing : closing.kind = .listEnd) :
    ∀ token ∈ (own ++ closing :: behind).head?,
      token.isContinuation = false := by
  intro token hToken
  cases hWritten with
  | nil =>
      simp only [List.nil_append, List.head?_cons,
        Option.mem_some_iff] at hToken
      subst hToken
      simp [Token.isContinuation, hClosing]
  | cons hItem hRest =>
      rename_i svara rest first later
      rcases hItem with ⟨holds, rfl, _, _⟩
      simp only [List.cons_append, List.head?_cons,
        Option.mem_some_iff] at hToken
      subst hToken
      rw [isContinuation_token]
      exact hNone svara (by simp)

/- Written svaras are read up to their closing brace. -/
theorem svarasOf_of_written
    {svaras : List Svara}
    {own behind : List Token}
    {closing : Token}
    (hWritten : WrittenInOrder Svara.WrittenBy svaras own)
    (hNone : Svara.NoneContinues svaras.tail)
    (hClosing : closing.kind = .listEnd) :
    svarasOf (own ++ closing :: behind) =
      .ok (svaras, behind) := by
  induction hWritten with
  | nil => simp [svarasOf, hClosing]
  | cons hItem hRest ih =>
      rename_i svara rest first later
      rcases hItem with ⟨holds, rfl, hHolds, hDuration⟩
      have hTail : Svara.NoneContinues rest.tail := by
        intro other hOther
        exact hNone other (List.mem_of_mem_tail hOther)
      have hNext :
          ∀ token ∈ (later ++ closing :: behind).head?,
            token.isContinuation = false :=
        head?_svaras_not_continuation hRest hNone hClosing
      have hSplit := takeWhile_dropWhile_append hHolds hNext
      simp only [List.cons_append, List.append_assoc]
      rw [svarasOf]
      simp [Svara.token, holdsOf, hSplit, ih hTail, hDuration]

theorem noneContinues_of_head?
    {svaras : List Svara}
    {own behind : List Token}
    (hWritten : WrittenInOrder Svara.WrittenBy svaras own)
    (hTail : Svara.NoneContinues svaras.tail)
    (hHead :
      ∀ token ∈ (own ++ behind).head?,
        token.isContinuation = false) :
    Svara.NoneContinues svaras := by
  intro svara hSvara
  cases hWritten with
  | nil => simp at hSvara
  | cons hItem hRest =>
      rename_i first rest own later
      rcases hItem with ⟨holds, rfl, _, _⟩
      rcases List.mem_cons.mp hSvara with rfl | hLater
      · rw [← isContinuation_token]
        exact hHead svara.token rfl
      · exact hTail svara hLater

/- What is read as svaras writes them. -/
theorem written_of_svarasOf
    {tokens behind : List Token}
    {svaras : List Svara}
    (hRead : svarasOf tokens = .ok (svaras, behind)) :
    ∃ own closing,
      tokens = own ++ closing :: behind ∧
        closing.kind = .listEnd ∧
        WrittenInOrder Svara.WrittenBy svaras own ∧
        (∀ svara ∈ svaras, 1 ≤ svara.duration) ∧
        Svara.NoneContinues svaras.tail := by
  fun_induction svarasOf tokens generalizing svaras behind with
  | case1 => simp at hRead
  | case2 token rest hEnd =>
      simp only [Except.ok.injEq, Prod.mk.injEq] at hRead
      rcases hRead with ⟨rfl, rfl⟩
      exact ⟨[], token, rfl, hEnd, .nil, by simp,
        by simp [Svara.NoneContinues]⟩
  | case3 token rest hEnd hName inner after hInner ih =>
      simp only [Except.ok.injEq, Prod.mk.injEq] at hRead
      rcases hRead with ⟨rfl, rfl⟩
      rcases ih hInner with
        ⟨own, closing, hOwn, hClosing, hWritten, hDuration,
          hTail⟩
      -- The holds of the svara are what was dropped.
      have hHolds :=
        List.takeWhile_append_dropWhile
          (p := Token.isContinuation) (l := rest)
      have hHead :
          ∀ token ∈ (own ++ closing :: after).head?,
            token.isContinuation = false := by
        intro next hNext
        rw [← hOwn] at hNext
        have hNot := List.head?_dropWhile_not
          Token.isContinuation rest
        simp only [Option.mem_def] at hNext
        simpa [hNext] using hNot
      refine ⟨token :: rest.takeWhile Token.isContinuation ++
        own, closing, ?_, hClosing, ?_, ?_, ?_⟩
      · rw [hOwn] at hHolds
        simp [hHolds]
      · refine .cons ⟨_, ?_, ?_, rfl⟩ hWritten
        · simp [Svara.token, ← hName]
        · intro hold hHold
          exact List.mem_takeWhile_imp hHold
      · intro svara hSvara
        rcases List.mem_cons.mp hSvara with rfl | hLater
        · simp
        · exact hDuration svara hLater
      · exact noneContinues_of_head? hWritten hTail hHead
  | case4 => simp at hRead
  | case5 => simp at hRead

------------------------------------------------------------
-- Lines
------------------------------------------------------------

theorem expect_eq_ok_iff
    {kind : TokenKind}
    {tokens rest : List Token} :
    expect kind tokens = .ok rest ↔
      ∃ token, token.kind = kind ∧ tokens = token :: rest := by
  cases tokens with
  | nil => simp [expect]
  | cons token tail =>
      unfold expect
      by_cases hKind : token.kind = kind
      · simp only [hKind, if_true, Except.ok.injEq,
          List.cons.injEq]
        constructor
        · rintro rfl
          exact ⟨token, hKind, rfl, rfl⟩
        · rintro ⟨_, _, _, rfl⟩
          rfl
      · simp only [hKind, if_false, reduceCtorEq,
          List.cons.injEq, false_iff, not_exists]
        rintro other ⟨hOther, rfl, _⟩
        exact hKind hOther

/- What reads on behind an opening token reads exactly the
tokens that lead with one. -/
theorem expect_then_eq_ok_iff
    {α : Type}
    {kind : TokenKind}
    {tokens : List Token}
    {readOn : List Token → Except Misfit α}
    {read : α} :
    (match expect kind tokens with
      | .ok rest => readOn rest
      | .error misfit => .error misfit) = .ok read ↔
      ∃ first rest,
        tokens = first :: rest ∧
          first.kind = kind ∧
          readOn rest = .ok read := by
  constructor
  · intro hRead
    cases hOpen : expect kind tokens with
    | error misfit => simp [hOpen] at hRead
    | ok rest =>
        rw [hOpen] at hRead
        rcases expect_eq_ok_iff.mp hOpen with
          ⟨first, hFirst, rfl⟩
        exact ⟨first, rest, rfl, hFirst, hRead⟩
  · rintro ⟨first, rest, rfl, hFirst, hRead⟩
    have hOpen : expect kind (first :: rest) = .ok rest :=
      expect_eq_ok_iff.mpr ⟨first, hFirst, rfl⟩
    rw [hOpen]
    exact hRead

theorem svaraList_eq_ok_iff
    {tokens behind : List Token}
    {svaras : List Svara} :
    svaraList tokens = .ok (svaras, behind) ↔
      (∀ svara ∈ svaras, 1 ≤ svara.duration) ∧
        Svara.NoneContinues svaras.tail ∧
        ∃ first own closing,
          tokens = first :: own ++ closing :: behind ∧
            first.kind = .listStart ∧
            closing.kind = .listEnd ∧
            WrittenInOrder Svara.WrittenBy svaras own := by
  refine expect_then_eq_ok_iff.trans ?_
  constructor
  · rintro ⟨first, rest, rfl, hFirst, hRead⟩
    rcases written_of_svarasOf hRead with
      ⟨own, closing, rfl, hClosing, hWritten, hDuration,
        hTail⟩
    exact ⟨hDuration, hTail, first, own, closing, rfl,
      hFirst, hClosing, hWritten⟩
  · rintro ⟨_, hTail, first, own, closing, rfl, hFirst,
      hClosing, hWritten⟩
    exact ⟨first, _, rfl, hFirst,
      svarasOf_of_written hWritten hTail hClosing⟩

theorem gamakasOf_eq_ok_iff
    {tokens behind : List Token}
    {gamakas : List Gamaka} :
    gamakasOf tokens = .ok (gamakas, behind) ↔
      ∃ closing, closing.kind = .listEnd ∧
        tokens =
          gamakas.map Gamaka.token ++ closing :: behind := by
  constructor
  · intro hRead
    fun_induction gamakasOf tokens
      generalizing gamakas behind with
    | case1 => simp at hRead
    | case2 token rest hEnd =>
        simp only [Except.ok.injEq, Prod.mk.injEq] at hRead
        rcases hRead with ⟨rfl, rfl⟩
        exact ⟨token, hEnd, rfl⟩
    | case3 token rest hEnd hName inner after hInner ih =>
        simp only [Except.ok.injEq, Prod.mk.injEq] at hRead
        rcases hRead with ⟨rfl, rfl⟩
        rcases ih hInner with ⟨closing, hClosing, rfl⟩
        refine ⟨closing, hClosing, ?_⟩
        simp [Gamaka.token, ← hName]
    | case4 => simp at hRead
    | case5 => simp at hRead
  · rintro ⟨closing, hClosing, rfl⟩
    induction gamakas with
    | nil => simp [gamakasOf, hClosing]
    | cons gamaka rest ih =>
        simp only [List.map_cons, List.cons_append]
        unfold gamakasOf
        simp [Gamaka.token, ih]

theorem gamakaList_eq_ok_iff
    {tokens behind : List Token}
    {gamakas : List Gamaka} :
    gamakaList tokens = .ok (gamakas, behind) ↔
      ∃ first closing,
        tokens =
            first :: gamakas.map Gamaka.token ++
              closing :: behind ∧
          first.kind = .listStart ∧
          closing.kind = .listEnd := by
  refine expect_then_eq_ok_iff.trans ?_
  constructor
  · rintro ⟨first, rest, rfl, hFirst, hRead⟩
    rcases gamakasOf_eq_ok_iff.mp hRead with
      ⟨closing, hClosing, rfl⟩
    exact ⟨first, closing, rfl, hFirst, hClosing⟩
  · rintro ⟨first, closing, rfl, hFirst, hClosing⟩
    exact ⟨first, _, rfl, hFirst,
      gamakasOf_eq_ok_iff.mpr ⟨closing, hClosing, rfl⟩⟩

/- A line is read from its two lists, of one length. -/
theorem ofTokens_eq_ok_iff_lists
    {position : Position}
    {tokens behind : List Token}
    {line : Line} :
    ofTokens position tokens = .ok (line, behind) ↔
      ∃ second,
        svaraList tokens = .ok (line.svaras, second) ∧
          gamakaList second = .ok (line.gamakas, behind) ∧
          line.svaras.length = line.gamakas.length ∧
          line.position = position := by
  unfold ofTokens
  constructor
  · intro hRead
    cases hFirst : svaraList tokens with
    | error misfit => simp [hFirst] at hRead
    | ok read =>
        rcases read with ⟨svaras, second⟩
        simp only [hFirst] at hRead
        cases hSecond : gamakaList second with
        | error misfit => simp [hSecond] at hRead
        | ok read =>
            rcases read with ⟨gamakas, after⟩
            simp only [hSecond] at hRead
            split at hRead
            · rename_i hLength
              simp only [Except.ok.injEq,
                Prod.mk.injEq] at hRead
              rcases hRead with ⟨rfl, rfl⟩
              exact ⟨second, rfl, hSecond, hLength, rfl⟩
            · simp at hRead
  · rintro ⟨second, hFirst, hSecond, hLength, rfl⟩
    simp [hFirst, hSecond, hLength]

/- Both lists of a line are read exactly from tokens that write
the line, whether it has as many svaras as gamakas or not. -/
theorem lists_eq_ok_iff
    {first : Token}
    {rest behind : List Token}
    {line : Line} :
    (∃ second,
        svaraList (first :: rest) =
            .ok (line.svaras, second) ∧
          gamakaList second = .ok (line.gamakas, behind) ∧
          line.position = first.position) ↔
      (∀ svara ∈ line.svaras, 1 ≤ svara.duration) ∧
        Svara.NoneContinues line.svaras.tail ∧
        ∃ own, first :: rest = own ++ behind ∧
          line.WrittenBy own := by
  constructor
  · rintro ⟨second, hSvaras, hGamakas, hPosition⟩
    rcases svaraList_eq_ok_iff.mp hSvaras with
      ⟨hDuration, hTail, opening, svaraTokens, firstEnd,
        hTokens, hOpening, hFirstEnd, hWritten⟩
    rcases gamakaList_eq_ok_iff.mp hGamakas with
      ⟨secondStart, secondEnd, rfl, hStart, hSecondEnd⟩
    have hSame : first = opening := by
      simpa using congrArg List.head? hTokens
    refine ⟨hDuration, hTail, _, ?_, opening,
      firstEnd, secondStart, secondEnd, svaraTokens, rfl,
      hOpening, ?_, hFirstEnd, hStart, hSecondEnd, hWritten⟩
    · simp [hTokens]
    · rw [← hSame, hPosition]
  · rintro ⟨hDuration, hTail, own, hTokens,
      opening, firstEnd, secondStart, secondEnd, svaraTokens,
      rfl, hOpening, hPosition, hFirstEnd, hStart,
      hSecondEnd, hWritten⟩
    have hSame : first = opening := by
      simpa using congrArg List.head? hTokens
    refine ⟨secondStart :: line.gamakas.map Gamaka.token ++
      secondEnd :: behind, ?_, ?_, ?_⟩
    · refine svaraList_eq_ok_iff.mpr ⟨hDuration, hTail,
        opening, svaraTokens, firstEnd, ?_, hOpening,
        hFirstEnd, hWritten⟩
      simp [hTokens]
    · exact gamakaList_eq_ok_iff.mpr ⟨secondStart, secondEnd,
        rfl, hStart, hSecondEnd⟩
    · rw [hSame, hPosition]

/- What is read off the front as a line is exactly a balanced
line that the tokens there write. -/
theorem ofTokens_eq_ok_iff
    {first : Token}
    {rest behind : List Token}
    {line : Line} :
    ofTokens first.position (first :: rest) =
        .ok (line, behind) ↔
      line.IsBalanced ∧
        ∃ own, first :: rest = own ++ behind ∧
          line.WrittenBy own := by
  rw [ofTokens_eq_ok_iff_lists]
  constructor
  · rintro ⟨second, hSvaras, hGamakas, hLength, hPosition⟩
    rcases lists_eq_ok_iff.mp
        ⟨second, hSvaras, hGamakas, hPosition⟩ with
      ⟨hDuration, hTail, hOwn⟩
    exact ⟨⟨hLength, hDuration, hTail⟩, hOwn⟩
  · rintro ⟨⟨hLength, hDuration, hTail⟩, hOwn⟩
    rcases lists_eq_ok_iff.mpr ⟨hDuration, hTail, hOwn⟩ with
      ⟨second, hSvaras, hGamakas, hPosition⟩
    exact ⟨second, hSvaras, hGamakas, hLength, hPosition⟩

/- A written line stands between two braces, and has the place
of the first. -/
theorem exists_braces_of_writtenBy
    {line : Line}
    {own : List Token}
    (hOwn : line.WrittenBy own) :
    ∃ opening inner closing,
      own = opening :: inner ++ [closing] ∧
        opening.kind = .listStart ∧
        opening.position = line.position ∧
        closing.kind = .listEnd := by
  rcases hOwn with
    ⟨first, firstEnd, second, secondEnd, svaraTokens, rfl,
      hFirst, hPosition, _, _, hSecondEnd, _⟩
  exact ⟨first,
    svaraTokens ++
      firstEnd :: second :: line.gamakas.map Gamaka.token,
    secondEnd, by simp, hFirst, hPosition, hSecondEnd⟩

theorem not_writtenBy_nil (line : Line) :
    ¬ line.WrittenBy [] := by
  rintro ⟨first, _, _, _, _, hTokens, _⟩
  simp at hTokens

end Line

------------------------------------------------------------
-- Songs
------------------------------------------------------------

namespace Song

/- Lines are read one after the other. -/
theorem linesOf_cons
    (token : Token)
    (rest : List Token) :
    linesOf (token :: rest) =
      match Line.ofTokens token.position (token :: rest) with
      | .error fault => .error fault
      | .ok (line, behind) =>
          match linesOf behind with
          | .ok lines => .ok (line :: lines)
          | .error fault => .error fault := by
  rw [linesOf]
  split
  · rename_i fault hLine
    simp only [hLine]
  · rename_i line behind hLine
    cases hLater : linesOf behind <;>
      simp only [hLine, hLater]

/- A balanced line is read off the tokens that write it, and
the lines behind it are read on. -/
theorem linesOf_append_of_writtenBy
    {line : Line}
    {own : List Token}
    (hBalanced : line.IsBalanced)
    (hOwn : line.WrittenBy own)
    (behind : List Token) :
    linesOf (own ++ behind) =
      match linesOf behind with
      | .ok lines => .ok (line :: lines)
      | .error fault => .error fault := by
  cases own with
  | nil => exact absurd hOwn line.not_writtenBy_nil
  | cons first rest =>
      have hLine :
          Line.ofTokens first.position
              (first :: (rest ++ behind)) =
            .ok (line, behind) :=
        Line.ofTokens_eq_ok_iff.mpr
          ⟨hBalanced, first :: rest, rfl, hOwn⟩
      rw [List.cons_append, linesOf_cons, hLine]

/- Balanced lines are read off the tokens that write them, and
the lines behind them are read on. -/
theorem linesOf_append_of_written
    {lines : List Line}
    {own : List Token}
    (hBalanced : ∀ line ∈ lines, line.IsBalanced)
    (hWritten : WrittenInOrder Line.WrittenBy lines own)
    (behind : List Token) :
    linesOf (own ++ behind) =
      match linesOf behind with
      | .ok more => .ok (lines ++ more)
      | .error fault => .error fault := by
  induction hWritten with
  | nil =>
      rw [List.nil_append]
      cases linesOf behind <;> rfl
  | @cons line rest own later hOwn _ ih =>
      have hRest := ih fun other hOther =>
        hBalanced other (List.mem_cons_of_mem line hOther)
      have hLine := hBalanced line (by simp)
      rw [List.append_assoc,
        linesOf_append_of_writtenBy hLine hOwn, hRest]
      cases linesOf behind <;> rfl

/- Lines are read exactly from the tokens that write them, and
only when they are balanced. -/
theorem linesOf_eq_ok_iff
    {tokens : List Token}
    {lines : List Line} :
    linesOf tokens = .ok lines ↔
      (∀ line ∈ lines, line.IsBalanced) ∧
        WrittenInOrder Line.WrittenBy lines tokens := by
  constructor
  · intro hRead
    fun_induction linesOf tokens generalizing lines with
    | case1 =>
        simp only [Except.ok.injEq] at hRead
        subst hRead
        exact ⟨by simp, .nil⟩
    | case2 => simp at hRead
    | case3 token rest line behind hLine later hLater ih =>
        simp only [Except.ok.injEq] at hRead
        subst hRead
        rcases Line.ofTokens_eq_ok_iff.mp hLine with
          ⟨hBalanced, own, hTokens, hOwn⟩
        rcases ih hLater with ⟨hAll, hWritten⟩
        rw [hTokens]
        exact ⟨List.forall_mem_cons.mpr ⟨hBalanced, hAll⟩,
          .cons hOwn hWritten⟩
    | case4 => simp at hRead
  · rintro ⟨hBalanced, hWritten⟩
    have hRead :=
      linesOf_append_of_written hBalanced hWritten []
    simpa [linesOf] using hRead

/- A song is read exactly from the tokens that write it, and
only when it is balanced. -/
theorem ofTokens_eq_ok_iff
    {tokens : List Token}
    {song : Song} :
    ofTokens tokens = .ok song ↔
      song.IsBalanced ∧ song.WrittenBy tokens := by
  unfold IsBalanced WrittenBy
  rw [← linesOf_eq_ok_iff]
  unfold ofTokens SongReader.read SongReader.ofTokens
  cases hLines : linesOf tokens with
  | error fault => simp
  | ok lines =>
      simp only [Except.ok.injEq]
      constructor
      · rintro rfl
        rfl
      · rintro rfl
        rfl

/- Tokens that go on behind a song write its lines, and more
behind them. -/
theorem exists_lines_append
    {own more : List Token}
    {song longer : Song}
    (hSong : ofTokens own = .ok song)
    (hLonger : ofTokens (own ++ more) = .ok longer) :
    ∃ lines, longer.lines = song.lines ++ lines := by
  rcases ofTokens_eq_ok_iff.mp hSong with
    ⟨hBalanced, hWritten⟩
  have hLines := linesOf_eq_ok_iff.mpr
    (ofTokens_eq_ok_iff.mp hLonger)
  rw [linesOf_append_of_written hBalanced hWritten] at hLines
  cases hMore : linesOf more with
  | error fault => simp [hMore] at hLines
  | ok lines =>
      simp only [hMore, Except.ok.injEq] at hLines
      exact ⟨lines, hLines.symm⟩

end Song

end Carnatic
