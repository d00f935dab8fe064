import Carnatic.Proofs.Song.Grammar

/-
  Places inside a line.

  The classes that can go on a line depend on the place that
  the tokens in front have reached, and on nothing else of
  them. Every place inside a line can be brought to its end,
  so a token goes on a line exactly where the place behind
  the tokens in front admits its class.

  Main declarations:
    * `Line.GoesOn`
    * `Line.Place` and `Line.Place.next`
    * `Line.Place.run`
    * `Line.run_of_writtenBy`
    * `Line.IsShaped` and `Line.exists_shaped_of_run`
    * `Line.goesOn_iff`
-/

------------------------------------------------------------
-- Places
------------------------------------------------------------

namespace Carnatic

namespace Line

/- Some line begins with these tokens and goes on with this
one. Its lists need not be of one length. -/
def GoesOn
    (begun : List Token)
    (token : Token) : Prop :=
  ∃ (line : Line) (more : List Token),
    line.WrittenBy (begun ++ token :: more)

/- The places of a line: in front of its two lists, inside
them, and behind the second one. -/
inductive Place
| opening
| svaras
| between
| gamakas
| done
deriving DecidableEq, Repr

namespace Place

/- The place behind a token of a class, if a token of this
class can stand here. -/
def next : Place → TokenKind → Option Place
| .opening, .listStart => some .svaras
| .svaras, .svaraName => some .svaras
| .svaras, .listEnd => some .between
| .between, .listStart => some .gamakas
| .gamakas, .gamakaName => some .gamakas
| .gamakas, .listEnd => some .done
| _, _ => none

/- The class that is missed at a place where some other token
stands. -/
def item : Place → TokenKind
| .opening | .between => .listStart
| .svaras => .svaraName
| .gamakas | .done => .gamakaName

/- The brace that is missed at a place where no token is
left. -/
def brace : Place → TokenKind
| .opening | .between => .listStart
| .svaras | .gamakas | .done => .listEnd

/- The class that is missed at a place, where tokens or none
are left. -/
def missed (place : Place) : List Token → TokenKind
| [] => place.brace
| _ :: _ => place.item

theorem eq_item_of_next
    {place following : Place}
    {kind : TokenKind}
    (hNext : place.next kind = some following)
    (hKind : kind ≠ .listEnd) :
    kind = place.item := by
  cases place <;> cases kind <;> simp_all [next, item]

theorem eq_brace_of_next
    {place following : Place}
    {kind : TokenKind}
    (hNext : place.next kind = some following)
    (hKind : kind = .listStart ∨ kind = .listEnd) :
    kind = place.brace := by
  cases place <;> cases kind <;> simp_all [next, brace]

theorem exists_next_item
    {place : Place}
    (hPlace : place ≠ .done) :
    place.item ≠ .listEnd ∧
      ∃ following, place.next place.item = some following := by
  cases place <;> simp_all [next, item]

theorem exists_next_brace
    {place : Place}
    (hPlace : place ≠ .done) :
    (place.brace = .listStart ∨ place.brace = .listEnd) ∧
      ∃ following,
        place.next place.brace = some following := by
  cases place <;> simp_all [next, brace]

/- Where a list opens, nothing else can stand. -/
theorem opens_only
    {place inside : Place}
    (hOpens : place.next .listStart = some inside) :
    place.item = .listStart ∧ place.brace = .listStart ∧
      ∀ kind ≠ .listStart, place.next kind = none := by
  cases place <;> simp_all [next, item, brace]

theorem ne_done_of_next
    {place following : Place}
    {kind : TokenKind}
    (hNext : place.next kind = some following) :
    place ≠ .done := by
  rintro rfl
  cases kind <;> simp [next] at hNext

------------------------------------------------------------
-- Runs Over Tokens
------------------------------------------------------------

/- The last place that tokens reach one after the other, and
the tokens from the first one on that cannot stand there. -/
def run : Place → List Token → Place × List Token
| place, [] => (place, [])
| place, token :: rest =>
    match place.next token.kind with
    | some following => following.run rest
    | none => (place, token :: rest)

theorem run_nil (place : Place) :
    place.run [] = (place, []) :=
  rfl

theorem run_cons_of_some
    {place following : Place}
    {token : Token}
    (hNext : place.next token.kind = some following)
    (rest : List Token) :
    place.run (token :: rest) = following.run rest := by
  rw [run, hNext]

theorem run_cons_of_none
    {place : Place}
    {token : Token}
    (hNext : place.next token.kind = none)
    (rest : List Token) :
    place.run (token :: rest) = (place, token :: rest) := by
  rw [run, hNext]

/- Nothing goes on behind a line. -/
theorem run_done (tokens : List Token) :
    done.run tokens = (done, tokens) := by
  cases tokens with
  | nil => rfl
  | cons token rest =>
      exact run_cons_of_none (by cases token.kind <;> rfl) rest

/- Tokens are run one part after the other. -/
theorem run_append
    {place reached : Place}
    {front : List Token}
    (hFront : place.run front = (reached, []))
    (behind : List Token) :
    place.run (front ++ behind) = reached.run behind := by
  induction front generalizing place with
  | nil =>
      rw [run_nil, Prod.mk.injEq] at hFront
      rw [List.nil_append, hFront.1]
  | cons token rest ih =>
      cases hNext : place.next token.kind with
      | none =>
          rw [run_cons_of_none hNext] at hFront
          simp at hFront
      | some following =>
          rw [run_cons_of_some hNext] at hFront
          rw [List.cons_append, run_cons_of_some hNext,
            ih hFront]

/- Where all tokens can stand, those in front can. -/
theorem run_front
    {place last : Place}
    {front behind : List Token}
    (hRun : place.run (front ++ behind) = (last, [])) :
    ∃ reached, place.run front = (reached, []) := by
  induction front generalizing place with
  | nil => exact ⟨place, rfl⟩
  | cons token rest ih =>
      rw [List.cons_append] at hRun
      cases hNext : place.next token.kind with
      | none =>
          rw [run_cons_of_none hNext] at hRun
          simp at hRun
      | some following =>
          rw [run_cons_of_some hNext] at hRun
          rw [run_cons_of_some hNext]
          exact ih hRun

/- A run ends behind tokens that can all stand, in front of one
that cannot. -/
theorem exists_front_of_run
    {place reached : Place}
    {tokens rest : List Token}
    (hRun : place.run tokens = (reached, rest)) :
    ∃ front,
      tokens = front ++ rest ∧
        place.run front = (reached, []) ∧
        ∀ token ∈ rest.head?,
          reached.next token.kind = none := by
  induction tokens generalizing place with
  | nil =>
      rw [run_nil, Prod.mk.injEq] at hRun
      rcases hRun with ⟨rfl, rfl⟩
      exact ⟨[], rfl, rfl, by simp⟩
  | cons token later ih =>
      cases hNext : place.next token.kind with
      | none =>
          rw [run_cons_of_none hNext, Prod.mk.injEq] at hRun
          rcases hRun with ⟨rfl, rfl⟩
          exact ⟨[], rfl, rfl, by simpa using hNext⟩
      | some following =>
          rw [run_cons_of_some hNext] at hRun
          rcases ih hRun with ⟨front, rfl, hFront, hRest⟩
          refine ⟨token :: front, rfl, ?_, hRest⟩
          rw [run_cons_of_some hNext, hFront]

/- Tokens of a class that leads back to its place leave the
place as it is. -/
theorem run_of_stays
    {place : Place}
    {kind : TokenKind}
    {tokens : List Token}
    (hStays : place.next kind = some place)
    (hKind : ∀ token ∈ tokens, token.kind = kind) :
    place.run tokens = (place, []) := by
  induction tokens with
  | nil => rfl
  | cons token rest ih =>
      rcases List.forall_mem_cons.mp hKind with
        ⟨hToken, hRest⟩
      rw [← hToken] at hStays
      rw [run_cons_of_some hStays, ih hRest]

theorem exists_run_of_next
    {place following last : Place}
    {kind : TokenKind}
    (hNext : place.next kind = some following)
    (hMore : ∃ more, following.run more = (last, [])) :
    ∃ more, place.run more = (last, []) := by
  rcases hMore with ⟨more, hRun⟩
  let token : Token := ⟨kind, "", Position.origin⟩
  have hToken : place.next token.kind = some following := hNext
  exact ⟨token :: more, by rw [run_cons_of_some hToken, hRun]⟩

/- From every place some tokens lead on to the end of the
line. -/
theorem exists_run_eq_done (place : Place) :
    ∃ more, place.run more = (done, []) := by
  have hDone : ∃ more, done.run more = (done, []) :=
    ⟨[], rfl⟩
  have hGamakas : ∃ more, gamakas.run more = (done, []) :=
    exists_run_of_next
      (rfl : gamakas.next .listEnd = some done) hDone
  have hBetween : ∃ more, between.run more = (done, []) :=
    exists_run_of_next
      (rfl : between.next .listStart = some gamakas) hGamakas
  have hSvaras : ∃ more, svaras.run more = (done, []) :=
    exists_run_of_next
      (rfl : svaras.next .listEnd = some between) hBetween
  cases place with
  | opening =>
      exact exists_run_of_next
        (rfl : opening.next .listStart = some svaras) hSvaras
  | svaras => exact hSvaras
  | between => exact hBetween
  | gamakas => exact hGamakas
  | done => exact hDone

end Place

------------------------------------------------------------
-- Readers And Places
------------------------------------------------------------

/-
  How reading goes along with a run. A reader that stands at a
  place and reads up to a target leaves the tokens that the
  target runs on with. Its misfit is where the run ends.
-/
def Tracks
    {α : Type}
    (place target : Place)
    (tokens : List Token) :
    Except Misfit (α × List Token) → Prop
| .ok (_, behind) => place.run tokens = target.run behind
| .error misfit =>
    ∃ reached : Place,
      reached ≠ .done ∧
        place.run tokens = (reached, misfit.rest) ∧
        misfit.expected = reached.missed misfit.rest

theorem tracks_of_run_eq
    {α : Type}
    {place middle target : Place}
    {tokens rest : List Token}
    {read : Except Misfit (α × List Token)}
    (hRun : place.run tokens = middle.run rest)
    (hTracks : Tracks middle target rest read) :
    Tracks place target tokens read := by
  cases read with
  | ok read => exact hRun.trans hTracks
  | error misfit =>
      rcases hTracks with ⟨reached, hDone, hRest, hMissed⟩
      exact ⟨reached, hDone, hRun.trans hRest, hMissed⟩

/- A token that cannot stand at a place is a misfit there. -/
theorem tracks_misfit
    {α : Type}
    {place : Place}
    (target : Place)
    {token : Token}
    (hPlace : place ≠ .done)
    (hNext : place.next token.kind = none)
    (rest : List Token) :
    Tracks place target (token :: rest)
      (.error ⟨place.item, token :: rest⟩ :
        Except Misfit (α × List Token)) :=
  ⟨place, hPlace, Place.run_cons_of_none hNext rest, rfl⟩

/- An opening brace leads into its list. -/
theorem tracks_expect_then
    {α : Type}
    {place inside target : Place}
    {readOn : List Token → Except Misfit (α × List Token)}
    (hOpens : place.next .listStart = some inside)
    (hInside :
      ∀ rest, Tracks inside target rest (readOn rest))
    (tokens : List Token) :
    Tracks place target tokens
      (match expect .listStart tokens with
        | .ok rest => readOn rest
        | .error misfit => .error misfit) := by
  have hPlace := Place.ne_done_of_next hOpens
  rcases Place.opens_only hOpens with
    ⟨hItem, hBrace, hOnly⟩
  cases tokens with
  | nil => exact ⟨place, hPlace, rfl, hBrace.symm⟩
  | cons token rest =>
      by_cases hKind : token.kind = .listStart
      · rw [expect, if_pos hKind]
        rw [← hKind] at hOpens
        exact tracks_of_run_eq
          (Place.run_cons_of_some hOpens rest) (hInside rest)
      · rw [expect, if_neg hKind, ← hItem]
        exact tracks_misfit target hPlace
          (hOnly _ hKind) rest

theorem kind_of_isContinuation
    {token : Token}
    (hHold : token.isContinuation = true) :
    token.kind = .svaraName := by
  simp only [Token.isContinuation, Bool.and_eq_true,
    decide_eq_true_eq] at hHold
  exact hHold.1

/- A svara and its holds stay inside the first list. -/
theorem run_svara
    {token : Token}
    (hName : token.kind = .svaraName)
    (rest : List Token) :
    Place.svaras.run (token :: rest) =
      Place.svaras.run
        (rest.dropWhile Token.isContinuation) := by
  have hStays :
      Place.svaras.next .svaraName = some .svaras := rfl
  have hHolds :
      Place.svaras.run (token ::
          rest.takeWhile Token.isContinuation) =
        (.svaras, []) := by
    apply Place.run_of_stays hStays
    intro other hOther
    rcases List.mem_cons.mp hOther with rfl | hHold
    · exact hName
    · exact kind_of_isContinuation
        (List.mem_takeWhile_imp hHold)
  have hRest := Place.run_append hHolds
    (rest.dropWhile Token.isContinuation)
  rwa [List.cons_append,
    List.takeWhile_append_dropWhile] at hRest

theorem tracks_svarasOf (tokens : List Token) :
    Tracks .svaras .between tokens (svarasOf tokens) := by
  fun_induction svarasOf tokens with
  | case1 => exact ⟨.svaras, by simp, rfl, rfl⟩
  | case2 token rest hEnd =>
      have hNext :
          Place.svaras.next token.kind = some .between := by
        rw [hEnd]
        rfl
      exact Place.run_cons_of_some hNext rest
  | case3 token rest hEnd hName svaras behind hInner ih =>
      rw [hInner] at ih
      exact (run_svara hName rest).trans ih
  | case4 token rest hEnd hName misfit hInner ih =>
      rw [hInner] at ih
      exact tracks_of_run_eq (run_svara hName rest) ih
  | case5 token rest hEnd hName =>
      apply tracks_misfit
      · simp
      · cases hKind : token.kind <;> simp_all [Place.next]

theorem tracks_gamakasOf (tokens : List Token) :
    Tracks .gamakas .done tokens (gamakasOf tokens) := by
  fun_induction gamakasOf tokens with
  | case1 => exact ⟨.gamakas, by simp, rfl, rfl⟩
  | case2 token rest hEnd =>
      have hNext :
          Place.gamakas.next token.kind = some .done := by
        rw [hEnd]
        rfl
      exact Place.run_cons_of_some hNext rest
  | case3 token rest hEnd hName gamakas behind hInner ih =>
      have hNext :
          Place.gamakas.next token.kind = some .gamakas := by
        rw [hName]
        rfl
      rw [hInner] at ih
      exact (Place.run_cons_of_some hNext rest).trans ih
  | case4 token rest hEnd hName misfit hInner ih =>
      have hNext :
          Place.gamakas.next token.kind = some .gamakas := by
        rw [hName]
        rfl
      rw [hInner] at ih
      exact tracks_of_run_eq
        (Place.run_cons_of_some hNext rest) ih
  | case5 token rest hEnd hName =>
      apply tracks_misfit
      · simp
      · cases hKind : token.kind <;> simp_all [Place.next]

theorem tracks_svaraList (tokens : List Token) :
    Tracks .opening .between tokens (svaraList tokens) :=
  tracks_expect_then rfl tracks_svarasOf tokens

theorem tracks_gamakaList (tokens : List Token) :
    Tracks .between .done tokens (gamakaList tokens) :=
  tracks_expect_then rfl tracks_gamakasOf tokens

/- A line that tokens begin with is run to its end. -/
theorem run_of_lists
    {tokens second behind : List Token}
    {svaras : List Svara}
    {gamakas : List Gamaka}
    (hSvaras : svaraList tokens = .ok (svaras, second))
    (hGamakas : gamakaList second = .ok (gamakas, behind)) :
    Place.opening.run tokens = (.done, behind) := by
  have hFirst := tracks_svaraList tokens
  have hSecond := tracks_gamakaList second
  rw [hSvaras] at hFirst
  rw [hGamakas] at hSecond
  exact hFirst.trans (hSecond.trans (Place.run_done behind))

/- A line is read up to its end, and its lists are compared
then, or it is left at a misfit. -/
theorem ofTokens_cases
    (position : Position)
    (tokens : List Token) :
    (∃ line second behind,
        svaraList tokens = .ok (line.svaras, second) ∧
          gamakaList second = .ok (line.gamakas, behind) ∧
          line.position = position ∧
          ofTokens position tokens =
            if line.svaras.length = line.gamakas.length then
              .ok (line, behind)
            else
              .error (.unequal position line.svaras.length
                line.gamakas.length behind)) ∨
      ∃ (misfit : Misfit) (reached : Place),
        ofTokens position tokens = .error (.misfit misfit) ∧
          reached ≠ .done ∧
          Place.opening.run tokens =
            (reached, misfit.rest) ∧
          misfit.expected = reached.missed misfit.rest := by
  have hFirst := tracks_svaraList tokens
  unfold ofTokens
  cases hSvaras : svaraList tokens with
  | error misfit =>
      rw [hSvaras] at hFirst
      rcases hFirst with ⟨reached, hReached⟩
      exact .inr ⟨misfit, reached, rfl, hReached⟩
  | ok read =>
      rcases read with ⟨svaras, second⟩
      rw [hSvaras] at hFirst
      have hSecond :=
        tracks_of_run_eq hFirst (tracks_gamakaList second)
      cases hGamakas : gamakaList second with
      | error misfit =>
          rw [hGamakas] at hSecond
          rcases hSecond with ⟨reached, hReached⟩
          refine .inr ⟨misfit, reached, ?_, hReached⟩
          simp only [hGamakas]
      | ok read =>
          rcases read with ⟨gamakas, behind⟩
          refine .inl ⟨⟨svaras, gamakas, position⟩, second,
            behind, rfl, hGamakas, rfl, ?_⟩
          simp only [hGamakas]

/- Reading a line misfits exactly where the run of its tokens
ends inside the line. -/
theorem ofTokens_eq_misfit_iff
    {position : Position}
    {tokens : List Token}
    {misfit : Misfit} :
    ofTokens position tokens = .error (.misfit misfit) ↔
      ∃ reached : Place,
        reached ≠ .done ∧
          Place.opening.run tokens =
            (reached, misfit.rest) ∧
          misfit.expected = reached.missed misfit.rest := by
  rcases ofTokens_cases position tokens with
    ⟨line, second, behind, hSvaras, hGamakas, _, hRead⟩ |
      ⟨other, last, hRead, hLast, hRun, hMissed⟩
  · rw [hRead, run_of_lists hSvaras hGamakas]
    constructor
    · intro hMisfit
      split at hMisfit <;> simp at hMisfit
    · rintro ⟨reached, hReached, hRun, _⟩
      rw [Prod.mk.injEq] at hRun
      exact absurd hRun.1.symm hReached
  · rw [hRead, hRun]
    constructor
    · intro hMisfit
      cases hMisfit
      exact ⟨last, hLast, rfl, hMissed⟩
    · rintro ⟨reached, hReached, hSame, hExpected⟩
      rw [Prod.mk.injEq] at hSame
      rcases hSame with ⟨rfl, hRest⟩
      rcases misfit with ⟨expected, rest⟩
      rcases other with ⟨otherExpected, otherRest⟩
      simp only at hRest hExpected hMissed
      rw [hExpected, hMissed, hRest]

------------------------------------------------------------
-- Going On
------------------------------------------------------------

theorem kind_of_written
    {svaras : List Svara}
    {tokens : List Token}
    (hWritten :
      WrittenInOrder Svara.WrittenBy svaras tokens) :
    ∀ token ∈ tokens, token.kind = .svaraName := by
  induction hWritten with
  | nil => simp
  | cons hItem _ ih =>
      rcases hItem with ⟨holds, rfl, hHolds, _⟩
      refine List.forall_mem_append.mpr ⟨?_, ih⟩
      refine List.forall_mem_cons.mpr ⟨rfl, ?_⟩
      intro hold hHold
      exact kind_of_isContinuation (hHolds hold hHold)

/- A written line is run to its end. -/
theorem run_of_writtenBy
    {line : Line}
    {tokens : List Token}
    (hWritten : line.WrittenBy tokens) :
    Place.opening.run tokens = (.done, []) := by
  rcases hWritten with
    ⟨first, firstEnd, second, secondEnd, svaraTokens, rfl,
      hFirst, _, hFirstEnd, hSecond, hSecondEnd, hSvaras⟩
  have hOpenFirst :
      Place.opening.next first.kind = some .svaras := by
    rw [hFirst]
    rfl
  have hInFirst :
      Place.svaras.run svaraTokens = (.svaras, []) :=
    Place.run_of_stays rfl (kind_of_written hSvaras)
  have hCloseFirst :
      Place.svaras.next firstEnd.kind = some .between := by
    rw [hFirstEnd]
    rfl
  have hOpenSecond :
      Place.between.next second.kind = some .gamakas := by
    rw [hSecond]
    rfl
  have hInSecond :
      Place.gamakas.run (line.gamakas.map Gamaka.token) =
        (.gamakas, []) := by
    apply Place.run_of_stays
      (rfl : Place.gamakas.next .gamakaName = some .gamakas)
    simp [Gamaka.token]
  have hCloseSecond :
      Place.gamakas.next secondEnd.kind = some .done := by
    rw [hSecondEnd]
    rfl
  simp only [List.cons_append, List.append_assoc]
  rw [Place.run_cons_of_some hOpenFirst,
    Place.run_append hInFirst,
    Place.run_cons_of_some hCloseFirst,
    Place.run_cons_of_some hOpenSecond,
    Place.run_append hInSecond,
    Place.run_cons_of_some hCloseSecond, Place.run_nil]

/- A line that is balanced but for the lengths of its lists:
every svara has a unit at least, and no continuation stands
but in the first place. -/
structure IsShaped (line : Line) : Prop where
  duration_pos : ∀ svara ∈ line.svaras, 1 ≤ svara.duration
  noneContinues : Svara.NoneContinues line.svaras.tail

/- Tokens that run to the end of a line write one. -/
theorem exists_shaped_of_run
    {tokens : List Token}
    (hRun : Place.opening.run tokens = (.done, [])) :
    ∃ line : Line, line.IsShaped ∧ line.WrittenBy tokens := by
  cases tokens with
  | nil => simp [Place.run_nil] at hRun
  | cons first rest =>
      rcases ofTokens_cases first.position (first :: rest)
        with
        ⟨line, second, behind, hSvaras, hGamakas,
          hPosition, _⟩ |
          ⟨misfit, reached, _, hReached, hLeft, _⟩
      · rw [run_of_lists hSvaras hGamakas,
          Prod.mk.injEq] at hRun
        rcases lists_eq_ok_iff.mp
            ⟨second, hSvaras, hGamakas, hPosition⟩ with
          ⟨hDuration, hNone, own, hOwn, hWritten⟩
        rw [hRun.2, List.append_nil] at hOwn
        exact ⟨line, ⟨hDuration, hNone⟩, hOwn ▸ hWritten⟩
      · rw [hLeft, Prod.mk.injEq] at hRun
        exact absurd hRun.1 hReached

/- A token goes on a line that is begun exactly where its
class can stand at the place that is reached. -/
theorem goesOn_iff
    {begun : List Token}
    {token : Token} :
    GoesOn begun token ↔
      ∃ reached following : Place,
        Place.opening.run begun = (reached, []) ∧
          reached.next token.kind = some following := by
  constructor
  · rintro ⟨line, more, hWritten⟩
    have hRun := run_of_writtenBy hWritten
    rcases Place.run_front hRun with ⟨reached, hBegun⟩
    rw [Place.run_append hBegun] at hRun
    cases hNext : reached.next token.kind with
    | none =>
        rw [Place.run_cons_of_none hNext] at hRun
        simp at hRun
    | some following =>
        exact ⟨reached, following, hBegun, hNext⟩
  · rintro ⟨reached, following, hBegun, hNext⟩
    rcases following.exists_run_eq_done with ⟨more, hMore⟩
    have hRun :
        Place.opening.run (begun ++ token :: more) =
          (.done, []) := by
      rw [Place.run_append hBegun,
        Place.run_cons_of_some hNext, hMore]
    rcases exists_shaped_of_run hRun with
      ⟨line, _, hWritten⟩
    exact ⟨line, more, hWritten⟩

end Line

end Carnatic
