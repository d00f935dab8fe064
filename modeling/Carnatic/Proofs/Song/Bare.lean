import Carnatic.Proofs.Reading.First
import Carnatic.Proofs.Song.Grammar

/-
  Songs without places.

  Tokens know where they stand, and so do the svaras, gamakas
  and lines that are read off them. No decision of a reader
  looks at a place: tokens that differ in nothing but their
  places write songs that differ in nothing but theirs, or
  are refused for the same cause.

  Main declarations:
    * `Token.bare` and `Song.bare`
    * `unplaced` and `IgnoresPlaces`
    * `IgnoresPlaces.mapM` and `IgnoresPlaces.andThen`
    * `Song.linesOf_map_bare`
    * `Song.ignoresPlaces_ofTokens`
-/

------------------------------------------------------------
-- Bare Items
------------------------------------------------------------

namespace Carnatic

/- A token that stands nowhere. -/
def Token.bare (token : Token) : Token :=
  { token with position := Position.origin }

def Svara.bare (svara : Svara) : Svara :=
  { svara with position := Position.origin }

def Gamaka.bare (gamaka : Gamaka) : Gamaka :=
  { gamaka with position := Position.origin }

/- A line whose items stand nowhere, and itself neither. -/
def Line.bare (line : Line) : Line where
  svaras := line.svaras.map Svara.bare
  gamakas := line.gamakas.map Gamaka.bare
  position := Position.origin

def Song.bare (song : Song) : Song where
  lines := song.lines.map Line.bare

theorem Song.svaras_bare (song : Song) :
    song.bare.svaras = song.svaras.map Svara.bare := by
  simp only [svaras, bare, List.flatMap_map, List.map_flatMap]
  rfl

theorem Song.gamakas_bare (song : Song) :
    song.bare.gamakas = song.gamakas.map Gamaka.bare := by
  simp only [gamakas, bare, List.flatMap_map,
    List.map_flatMap]
  rfl

------------------------------------------------------------
-- Answers Without Places
------------------------------------------------------------

section Stages

variable {α β γ α' β' γ' : Type}

/- What an answer says when places are forgotten: what is kept
of a value, or the cause of an error. -/
def unplaced
    (forget : α → α') :
    Except SongError α → Except SongError.Cause α'
| .ok value => .ok (forget value)
| .error error => .error error.cause

theorem unplaced_eq_iff
    {forget : α → α'}
    {answer other : Except SongError α} :
    unplaced forget answer = unplaced forget other ↔
      (∃ value same,
        answer = .ok value ∧ other = .ok same ∧
          forget value = forget same) ∨
        ∃ error fault,
          answer = .error error ∧ other = .error fault ∧
            error.cause = fault.cause := by
  cases answer <;> cases other <;> simp [unplaced]

/- A stage through which places have no effect but on places.
What it is given and what it answers are compared as far as
they are kept. -/
def IgnoresPlaces
    (keep : α → α')
    (forget : β → β')
    (stage : α → Except SongError β) : Prop :=
  ∀ input other,
    keep input = keep other →
      unplaced forget (stage input) =
        unplaced forget (stage other)

/- A stage that answers the same to what is kept of its
input. -/
theorem IgnoresPlaces.of_kept
    {keep : α → α}
    {forgetKept forget : β → β'}
    {stage : α → Except SongError β}
    (hStage :
      ∀ input,
        unplaced forgetKept (stage (keep input)) =
          unplaced forget (stage input)) :
    IgnoresPlaces keep forget stage := by
  intro input other hSame
  rw [← hStage, ← hStage, hSame]

variable {keep : α → α'}
variable {forget : β → β'}
variable {forgetLast : γ → γ'}

/- A stage that hands on what another one answers, or the
error of that one. -/
theorem IgnoresPlaces.andThen
    {first : α → Except SongError β}
    {second : β → Except SongError γ}
    {whole : α → Except SongError γ}
    (hFirst : IgnoresPlaces keep forget first)
    (hSecond : IgnoresPlaces forget forgetLast second)
    (hError :
      ∀ input error,
        first input = .error error →
          whole input = .error error)
    (hOk :
      ∀ input value,
        first input = .ok value →
          whole input = second value) :
    IgnoresPlaces keep forgetLast whole := by
  intro input other hSame
  rcases unplaced_eq_iff.mp (hFirst input other hSame) with
    ⟨value, same, hValue, hOther, hKept⟩ |
      ⟨error, fault, hStops, hFault, hCause⟩
  · rw [hOk input value hValue, hOk other same hOther]
    exact hSecond value same hKept
  -- An error of the first stage is the error of the whole.
  · rw [hError input error hStops, hError other fault hFault]
    simp only [unplaced, hCause]

/- Items are read one after the other. -/
theorem IgnoresPlaces.mapM
    {read : α → Except SongError β}
    (hRead : IgnoresPlaces keep forget read) :
    IgnoresPlaces (List.map keep) (List.map forget)
      (List.mapM read) := by
  intro items others hSame
  induction items generalizing others with
  | nil =>
      rw [List.map_nil, eq_comm, List.map_eq_nil_iff] at hSame
      rw [hSame]
  | cons item rest ih =>
      rw [List.map_cons, eq_comm,
        List.map_eq_cons_iff] at hSame
      rcases hSame with ⟨other, later, rfl, hItem, hRest⟩
      have hLater := ih later hRest.symm
      rcases unplaced_eq_iff.mp
          (hRead item other hItem.symm) with
        ⟨value, same, hValue, hOther, hKept⟩ |
          ⟨error, fault, hError, hFault, hCause⟩
      · rw [mapM_cons_of_ok hValue, mapM_cons_of_ok hOther]
        rcases unplaced_eq_iff.mp hLater with
          ⟨values, sames, hValues, hSames, hAll⟩ |
            ⟨error, fault, hError, hFault, hCause⟩
        · simp only [hValues, hSames, unplaced, List.map_cons,
            hKept, hAll]
        · simp only [hError, hFault, unplaced, hCause]
      · rw [mapM_cons_of_error hError,
          mapM_cons_of_error hFault]
        simp only [unplaced, hCause]

end Stages

------------------------------------------------------------
-- Reading Bare Tokens
------------------------------------------------------------

def Misfit.bare (misfit : Misfit) : Misfit where
  expected := misfit.expected
  rest := misfit.rest.map Token.bare

namespace Line

def Fault.bare : Fault → Fault
| .misfit left => .misfit left.bare
| .unequal _ svaras gamakas rest =>
    .unequal Position.origin svaras gamakas
      (rest.map Token.bare)

/- What is read, and the tokens behind it, without places. -/
def bareRead
    {α ε : Type}
    (forget : α → α)
    (forgetFault : ε → ε) :
    Except ε (α × List Token) → Except ε (α × List Token)
| .ok (read, behind) =>
    .ok (forget read, behind.map Token.bare)
| .error fault => .error (forgetFault fault)

/- Continuations are told by their words. -/
theorem holds_map_bare (tokens : List Token) :
    holdsOf (tokens.map Token.bare) = holdsOf tokens ∧
      (tokens.map Token.bare).dropWhile
          Token.isContinuation =
        (tokens.dropWhile Token.isContinuation).map
          Token.bare := by
  have hBare :
      Token.isContinuation ∘ Token.bare =
        Token.isContinuation := rfl
  rw [holdsOf, holdsOf, List.takeWhile_map,
    List.dropWhile_map, hBare, List.length_map]
  exact ⟨rfl, rfl⟩

/- Lists are read by the classes and words of their tokens. -/
theorem svarasOf_map_bare (tokens : List Token) :
    svarasOf (tokens.map Token.bare) =
      bareRead (List.map Svara.bare) Misfit.bare
        (svarasOf tokens) := by
  fun_induction svarasOf tokens with
  | case1 => simp [svarasOf, bareRead, Misfit.bare]
  | case2 token rest hEnd =>
      simp [svarasOf, bareRead, Token.bare, hEnd]
  | case3 token rest hEnd hName svaras behind hInner ih =>
      rw [hInner] at ih
      rcases holds_map_bare rest with ⟨hHolds, hRest⟩
      rw [List.map_cons, svarasOf, hHolds, hRest, ih]
      simp [bareRead, Token.bare, Svara.bare, hName]
  | case4 token rest hEnd hName misfit hInner ih =>
      rw [hInner] at ih
      rw [List.map_cons, svarasOf, (holds_map_bare rest).2, ih]
      simp [bareRead, Token.bare, hName]
  | case5 token rest hEnd hName =>
      simp [svarasOf, bareRead, Misfit.bare, Token.bare, hEnd,
        hName]

theorem gamakasOf_map_bare (tokens : List Token) :
    gamakasOf (tokens.map Token.bare) =
      bareRead (List.map Gamaka.bare) Misfit.bare
        (gamakasOf tokens) := by
  fun_induction gamakasOf tokens with
  | case1 => rfl
  | case2 token rest hEnd =>
      simp [gamakasOf, bareRead, Token.bare, hEnd]
  | case3 token rest hEnd hName gamakas behind hInner ih =>
      rw [hInner] at ih
      rw [List.map_cons, gamakasOf, ih]
      simp [bareRead, Token.bare, Gamaka.bare, hName]
  | case4 token rest hEnd hName misfit hInner ih =>
      rw [hInner] at ih
      rw [List.map_cons, gamakasOf, ih]
      simp [bareRead, Token.bare, hName]
  | case5 token rest hEnd hName =>
      simp [gamakasOf, bareRead, Misfit.bare, Token.bare, hEnd,
        hName]

/- What ignores places behind a brace ignores that of the
brace. -/
theorem expect_then_map_bare
    {α : Type}
    {forget : α → α}
    {readOn : List Token → Except Misfit (α × List Token)}
    (hReadOn :
      ∀ rest,
        readOn (rest.map Token.bare) =
          bareRead forget Misfit.bare (readOn rest))
    (kind : TokenKind)
    (tokens : List Token) :
    (match expect kind (tokens.map Token.bare) with
      | .ok rest => readOn rest
      | .error misfit => .error misfit) =
      bareRead forget Misfit.bare
        (match expect kind tokens with
          | .ok rest => readOn rest
          | .error misfit => .error misfit) := by
  cases tokens with
  | nil => rfl
  | cons token rest =>
      have hBare : token.bare.kind = token.kind := rfl
      rw [List.map_cons, expect, expect, hBare]
      by_cases hKind : token.kind = kind
      · rw [if_pos hKind, if_pos hKind]
        exact hReadOn rest
      · rw [if_neg hKind, if_neg hKind]
        rfl

/- Lines are compared by the lengths of their lists, which
have no places. -/
theorem ofTokens_map_bare
    (position : Position)
    (tokens : List Token) :
    ofTokens Position.origin (tokens.map Token.bare) =
      bareRead Line.bare Fault.bare
        (ofTokens position tokens) := by
  have hFirst :
      svaraList (tokens.map Token.bare) =
        bareRead (List.map Svara.bare) Misfit.bare
          (svaraList tokens) :=
    expect_then_map_bare svarasOf_map_bare .listStart tokens
  unfold ofTokens
  rw [hFirst]
  cases svaraList tokens with
  | error misfit => rfl
  | ok read =>
      rcases read with ⟨svaras, second⟩
      have hSecond :
          gamakaList (second.map Token.bare) =
            bareRead (List.map Gamaka.bare) Misfit.bare
              (gamakaList second) :=
        expect_then_map_bare gamakasOf_map_bare .listStart
          second
      simp only [bareRead, hSecond]
      cases gamakaList second with
      | error misfit => rfl
      | ok read =>
          rcases read with ⟨gamakas, behind⟩
          simp only [List.length_map]
          split <;> rfl

end Line

------------------------------------------------------------
-- Songs
------------------------------------------------------------

namespace Song

theorem linesOf_map_bare_cons
    (token : Token)
    (rest : List Token) :
    linesOf ((token :: rest).map Token.bare) =
      match Line.bareRead Line.bare Line.Fault.bare
          (Line.ofTokens token.position (token :: rest)) with
      | .error fault => .error fault
      | .ok (line, behind) =>
          match linesOf behind with
          | .ok lines => .ok (line :: lines)
          | .error fault => .error fault := by
  rw [← Line.ofTokens_map_bare token.position]
  exact linesOf_cons token.bare (rest.map Token.bare)

/- From bare tokens the bare lines are read, or the bare
fault. -/
theorem linesOf_map_bare (tokens : List Token) :
    linesOf (tokens.map Token.bare) =
      match linesOf tokens with
      | .ok lines => .ok (lines.map Line.bare)
      | .error fault => .error fault.bare := by
  fun_induction linesOf tokens with
  | case1 => simp [linesOf]
  | case2 token rest fault hLine =>
      rw [linesOf_map_bare_cons, hLine]
      rfl
  | case3 token rest line behind hLine lines hLater ih =>
      rw [hLater] at ih
      rw [linesOf_map_bare_cons, hLine]
      simp only [Line.bareRead, ih, List.map_cons]
  | case4 token rest line behind hLine fault hLater ih =>
      rw [hLater] at ih
      rw [linesOf_map_bare_cons, hLine]
      simp only [Line.bareRead, ih]

/- Readers point errors to different ends, which are places
only. -/
theorem cause_errorOf_bare
    (reader other : SongReader)
    (fault : Line.Fault) :
    (reader.errorOf fault.bare).cause =
      (other.errorOf fault).cause := by
  cases fault with
  | misfit misfit =>
      rcases misfit with ⟨expected, _ | ⟨token, rest⟩⟩ <;> rfl
  | unequal => rfl

theorem unplaced_ofTokens_map_bare (tokens : List Token) :
    unplaced id (ofTokens (tokens.map Token.bare)) =
      unplaced Song.bare (ofTokens tokens) := by
  have hLines := linesOf_map_bare tokens
  unfold ofTokens SongReader.read
  simp only [SongReader.ofTokens, hLines]
  cases linesOf tokens with
  | ok lines => rfl
  | error fault =>
      exact congrArg Except.error (cause_errorOf_bare _ _ fault)

/- The song of some tokens has its places from them, and
nothing else that depends on places. -/
theorem ignoresPlaces_ofTokens :
    IgnoresPlaces (List.map Token.bare) Song.bare
      ofTokens :=
  .of_kept unplaced_ofTokens_map_bare

end Song

end Carnatic
