import Carnatic.Proofs.Performance.Stillness
import Carnatic.Proofs.Song.Music

/-
  Svaras that are cut in two.

  A svara of several units is cut after some of them, and both
  parts have its name and its gamaka. Nothing around it takes
  notice: the offsets on both sides stay, and the segment of
  the svara is cut where the svara is. In the tokens, the name
  takes the place of a hold, and the gamaka stands twice.

  Main declarations:
    * `Cut`
    * `Pitch.carryForward_append_offset`
    * `Song.offsetsOf_cut`
    * `Song.exists_join_front`
    * `Song.segments_cut`
    * `Cut.Writing` and `Cut.exists_writing_of_song`
-/

------------------------------------------------------------
-- Cuts
------------------------------------------------------------

namespace Carnatic

namespace Svara

/- The first units of a svara. -/
def upTo
    (svara : Svara)
    (units : Nat) : Svara :=
  { svara with duration := units }

/- What is left of a svara behind its first units. -/
def beyond
    (svara : Svara)
    (units : Nat) : Svara :=
  { svara with duration := svara.duration - units }

end Svara

/- A svara that is cut after some units. It stands among
others, and its gamaka at the same index among theirs. -/
structure Cut where
  svara : Svara
  gamaka : Gamaka
  units : Nat
  svarasBefore : List Svara
  svarasAfter : List Svara
  gamakasBefore : List Gamaka
  gamakasAfter : List Gamaka
  length_eq : gamakasBefore.length = svarasBefore.length

namespace Cut

/- The svaras before they are cut. -/
def svaras (cut : Cut) : List Svara :=
  cut.svarasBefore ++ cut.svara :: cut.svarasAfter

def gamakas (cut : Cut) : List Gamaka :=
  cut.gamakasBefore ++ cut.gamaka :: cut.gamakasAfter

/- The svaras with both parts of the one that is cut. -/
def partSvaras (cut : Cut) : List Svara :=
  cut.svarasBefore ++
    cut.svara.upTo cut.units ::
      cut.svara.beyond cut.units :: cut.svarasAfter

/- The gamakas with the same one for both parts. -/
def partGamakas (cut : Cut) : List Gamaka :=
  cut.gamakasBefore ++
    cut.gamaka :: cut.gamaka :: cut.gamakasAfter

/- A line of the svaras, before and after the cut. -/
def line (cut : Cut) (position : Position) : Line :=
  ⟨cut.svaras, cut.gamakas, position⟩

def partLine (cut : Cut) (position : Position) : Line :=
  ⟨cut.partSvaras, cut.partGamakas, position⟩

/- The cut with all svaras and gamakas of the lines around. -/
def within
    (cut : Cut)
    (before after : List Line)
    (hBalanced : ∀ line ∈ before, line.IsBalanced) : Cut :=
  { cut with
    svarasBefore :=
      Song.svaras ⟨before⟩ ++ cut.svarasBefore
    svarasAfter := cut.svarasAfter ++ Song.svaras ⟨after⟩
    gamakasBefore :=
      Song.gamakas ⟨before⟩ ++ cut.gamakasBefore
    gamakasAfter := cut.gamakasAfter ++ Song.gamakas ⟨after⟩
    length_eq := by
      rw [List.length_append, List.length_append,
        cut.length_eq, Song.length_svaras hBalanced] }

section Within

variable (cut : Cut)
variable (position : Position)
variable (before after : List Line)
variable (hBalanced : ∀ line ∈ before, line.IsBalanced)

theorem svaras_within :
    Song.svaras ⟨before ++ cut.line position :: after⟩ =
      (cut.within before after hBalanced).svaras := by
  simp [Song.svaras, within, svaras, line]

theorem gamakas_within :
    Song.gamakas ⟨before ++ cut.line position :: after⟩ =
      (cut.within before after hBalanced).gamakas := by
  simp [Song.gamakas, within, gamakas, line]

theorem partSvaras_within :
    Song.svaras ⟨before ++ cut.partLine position :: after⟩ =
      (cut.within before after hBalanced).partSvaras := by
  simp [Song.svaras, within, partSvaras, partLine]

theorem partGamakas_within :
    Song.gamakas ⟨before ++ cut.partLine position :: after⟩ =
      (cut.within before after hBalanced).partGamakas := by
  simp [Song.gamakas, within, partGamakas, partLine]

end Within

end Cut

------------------------------------------------------------
-- Offsets Around A Named Svara
------------------------------------------------------------

namespace Pitch

theorem carryFrom_append_offset
    (last semitones : Int)
    (before after : List Pitch) :
    carryFrom last (before ++ .offset semitones :: after) =
      carryFrom last before ++
        semitones :: carryFrom semitones after := by
  induction before generalizing last with
  | nil => rfl
  | cons pitch rest ih =>
      cases pitch with
      | offset other => simp [carryFrom, ih]
      | continuation => simp [carryFrom, ih]

/- What is in front of an offset does not matter behind it. -/
theorem carryForward_append_offset
    (semitones : Int)
    (before after : List Pitch) :
    carryForward (before ++ .offset semitones :: after) =
      (carryForward before).map fun offsets =>
        offsets ++ semitones :: carryFrom semitones after := by
  cases before with
  | nil => rfl
  | cons pitch rest =>
      cases pitch with
      | offset other =>
          simp [carryForward, carryFrom_append_offset]
      | continuation => rfl

end Pitch

namespace Song

/- Offsets are those that the pitches of svaras carry
forward. -/
theorem offsetsOf_eq_ok_iff
    {svaras : List Svara}
    {offsets : List Int} :
    offsetsOf svaras = .ok offsets ↔
      ∃ pitches,
        List.Forall₂
            (fun svara pitch => svara.pitch = .ok pitch)
            svaras pitches ∧
          Pitch.carryForward pitches = some offsets := by
  unfold offsetsOf
  simp only [pitchesOf_eq_mapM, ← mapM_eq_ok_iff]
  cases hPitches : svaras.mapM Svara.pitch with
  | error error => simp
  | ok pitches =>
      simp only [Except.ok.injEq, exists_eq_left']
      cases hCarried : Pitch.carryForward pitches with
      | some carried => simp
      | none =>
          cases mapM_eq_ok_iff.mp hPitches with
          | nil => simp [Pitch.carryForward] at hCarried
          | cons => simp

/- The parts of a svara that is cut have its offset, and the
others keep theirs. -/
theorem offsetsOf_cut
    {cut : Cut}
    {offset : Int}
    {offsets : List Int}
    (hNames : Svara.NamesOffset cut.svara.name offset)
    (hOffsets : offsetsOf cut.svaras = .ok offsets) :
    ∃ before after,
      before.length = cut.svarasBefore.length ∧
        offsets = before ++ offset :: after ∧
        offsetsOf cut.partSvaras =
          .ok (before ++ offset :: offset :: after) := by
  rcases offsetsOf_eq_ok_iff.mp hOffsets with
    ⟨pitches, hPitches, hCarried⟩
  rcases exists_split_of_forall₂ hPitches with
    ⟨front, pitch, back, rfl, hFront, hPitch, hBack⟩
  rw [Svara.pitch_eq_ok_iff,
    Pitch.ofName?_eq_offset_iff.mpr hNames,
    Option.some.injEq] at hPitch
  subst hPitch
  rw [Pitch.carryForward_append_offset,
    Option.map_eq_some_iff] at hCarried
  rcases hCarried with ⟨before, hBefore, rfl⟩
  have hRead := offsetsOf_eq_ok_iff.mpr
    ⟨front, hFront, hBefore⟩
  refine ⟨before, _,
    (soundAt_of_offsetsOf hRead).length_eq, rfl, ?_⟩
  -- Both parts have the name of the svara.
  have hPart :
      ∀ units,
        (cut.svara.upTo units).pitch = .ok (.offset offset) ∧
          (cut.svara.beyond units).pitch =
            .ok (.offset offset) := by
    intro units
    rw [Svara.pitch_eq_ok_iff, Svara.pitch_eq_ok_iff]
    exact ⟨Pitch.ofName?_eq_offset_iff.mpr hNames,
      Pitch.ofName?_eq_offset_iff.mpr hNames⟩
  refine offsetsOf_eq_ok_iff.mpr
    ⟨front ++ .offset offset :: .offset offset :: back,
      List.rel_append hFront
        (.cons (hPart _).1 (.cons (hPart _).2 hBack)), ?_⟩
  rw [Pitch.carryForward_append_offset, hBefore]
  rfl

------------------------------------------------------------
-- Segments Of A Cut
------------------------------------------------------------

variable {R : Type} [Scalar R]

/- Segments in front of an offset depend on nothing behind
it. -/
theorem exists_join_front
    {svaras : List Svara}
    {offsets : List Int}
    {curves : List (Curve R)}
    (hOffsets : offsets.length = svaras.length)
    (hCurves : curves.length = svaras.length)
    (offset : Int) :
    ∃ front,
      ∀ (later : List Svara) (following : List Int)
        (others : List (Curve R)),
          join (svaras ++ later)
              (offsets ++ offset :: following)
              (curves ++ others) =
            front ++ join later (offset :: following) others := by
  induction svaras generalizing offsets curves with
  | nil =>
      rw [List.length_nil, List.length_eq_zero_iff] at hOffsets
      rw [List.length_nil, List.length_eq_zero_iff] at hCurves
      subst hOffsets hCurves
      exact ⟨[], fun _ _ _ => rfl⟩
  | cons svara rest ih =>
      rcases List.exists_of_length_succ offsets hOffsets with
        ⟨start, offsets, rfl⟩
      rcases List.exists_of_length_succ curves hCurves with
        ⟨curve, curves, rfl⟩
      simp only [List.length_cons,
        Nat.add_right_cancel_iff] at hOffsets hCurves
      rcases ih hOffsets hCurves with ⟨front, hFront⟩
      refine ⟨⟨start, (offsets ++ [offset]).headD start,
        svara.duration, curve, svara.position⟩ :: front, ?_⟩
      intro later following others
      simp only [List.cons_append, join, hFront]
      -- The target is there before the offset or is it.
      cases offsets <;> rfl

/- The segment of a svara that is cut is cut at its place. The
segments around it stay. -/
theorem segments_cut
    {song other : Song}
    {registry : Registry R}
    {cut : Cut}
    {offset : Int}
    {curve : Curve R}
    {tune : List (Segment R)}
    (hNames : Svara.NamesOffset cut.svara.name offset)
    (hCurve : registry.get? cut.gamaka.name = some curve)
    (hSvaras : song.svaras = cut.svaras)
    (hGamakas : song.gamakas = cut.gamakas)
    (hPartSvaras : other.svaras = cut.partSvaras)
    (hPartGamakas : other.gamakas = cut.partGamakas)
    (hTune : song.segments registry = .ok tune) :
    ∃ before segment after,
      tune = before ++ segment :: after ∧
        segment.start = offset ∧
        segment.curve = curve ∧
        segment.duration = cut.svara.duration ∧
        other.segments registry =
          .ok
            (before ++
              segment.upTo cut.units ::
                segment.beyond cut.units :: after) := by
  rcases segments_eq_ok_iff.mp hTune with
    ⟨offsets, curves, hOffsets, hCurves, rfl⟩
  rw [hSvaras] at hOffsets ⊢
  rw [hGamakas, curvesOf_eq_mapM, mapM_eq_ok_iff] at hCurves
  rcases offsetsOf_cut hNames hOffsets with
    ⟨first, last, hFirst, rfl, hPartOffsets⟩
  rcases exists_split_of_forall₂ hCurves with
    ⟨front, found, back, rfl, hFront, hFound, hBack⟩
  have hOf : registry.curveOf cut.gamaka = .ok curve := by
    simp only [Registry.curveOf, hCurve]
  rw [hOf, Except.ok.injEq] at hFound
  subst hFound
  have hPartCurves :
      curvesOf registry cut.partGamakas =
        .ok (front ++ curve :: curve :: back) := by
    rw [curvesOf_eq_mapM, mapM_eq_ok_iff]
    exact List.rel_append hFront
      (.cons hOf (.cons hOf hBack))
  have hLength : front.length = cut.svarasBefore.length := by
    rw [← hFront.length_eq, cut.length_eq]
  rcases exists_join_front hFirst hLength offset with
    ⟨before, hJoin⟩
  refine ⟨before, ⟨offset, last.headD offset,
      cut.svara.duration, curve, cut.svara.position⟩,
    join cut.svarasAfter last back, hJoin _ _ _, rfl, rfl,
    rfl, ?_⟩
  refine segments_eq_ok_iff.mpr
    ⟨_, _, hPartSvaras ▸ hPartOffsets,
      hPartGamakas ▸ hPartCurves, ?_⟩
  rw [hPartSvaras]
  exact (hJoin
    (cut.svara.upTo cut.units ::
      cut.svara.beyond cut.units :: cut.svarasAfter)
    (offset :: last) (curve :: curve :: back)).symm

end Song

------------------------------------------------------------
-- Tokens Of A Cut
------------------------------------------------------------

namespace Cut

/- A cut that leaves a unit on both sides at least. -/
structure IsProper (cut : Cut) : Prop where
  units_pos : 1 ≤ cut.units
  units_lt : cut.units < cut.svara.duration

/- Tokens around the name of a svara and around its gamaka:
those in front of the name, the holds behind it, those up to
the gamaka, and those behind the gamaka. -/
structure Writing where
  front : List Token
  holds : List Token
  middle : List Token
  behind : List Token

namespace Writing

variable (writing : Writing)
variable (cut : Cut)

/- The tokens with the svara as a whole. -/
def tokens : List Token :=
  writing.front ++
    cut.svara.token ::
      (writing.holds ++
        (writing.middle ++ cut.gamaka.token :: writing.behind))

/- The tokens with both parts of the svara: the name takes the
place of a hold, and the gamaka stands there twice. -/
def parts : List Token :=
  writing.front ++
    cut.svara.token ::
      (writing.holds.take (cut.units - 1) ++
        cut.svara.token ::
          (writing.holds.drop cut.units ++
            (writing.middle ++
              cut.gamaka.token ::
                cut.gamaka.token :: writing.behind)))

/- All continuations behind the name are holds of the svara, as
many as it is long. -/
structure IsOf : Prop where
  isContinuation :
    ∀ hold ∈ writing.holds, hold.isContinuation = true
  not_isContinuation :
    ∀ token ∈ (writing.middle ++ [cut.gamaka.token]).head?,
      token.isContinuation = false
  length_eq : writing.holds.length + 1 = cut.svara.duration

/- The same with more tokens on both sides. -/
def within (front behind : List Token) : Writing :=
  { writing with
    front := front ++ writing.front
    behind := writing.behind ++ behind }

variable {writing cut}

/- The holds are shared out between the parts. -/
theorem IsOf.writtenBy_parts
    (hWriting : writing.IsOf cut)
    (hProper : cut.IsProper) :
    (cut.svara.upTo cut.units).WrittenBy
        (cut.svara.token ::
          writing.holds.take (cut.units - 1)) ∧
      (cut.svara.beyond cut.units).WrittenBy
        (cut.svara.token :: writing.holds.drop cut.units) := by
  have hLength := hWriting.length_eq
  have hPos := hProper.units_pos
  have hLt := hProper.units_lt
  refine ⟨⟨_, rfl, ?_, ?_⟩, ⟨_, rfl, ?_, ?_⟩⟩
  · intro hold hHold
    exact hWriting.isContinuation hold
      (List.mem_of_mem_take hHold)
  · simp only [Svara.upTo, List.length_take]
    omega
  · intro hold hHold
    exact hWriting.isContinuation hold
      (List.mem_of_mem_drop hHold)
  · simp only [Svara.beyond, List.length_drop]
    omega

end Writing

/- Both parts of a svara can be written where the svara can,
unless it is a continuation. -/
theorem isBalanced_partLine
    {cut : Cut}
    {position : Position}
    (hBalanced : (cut.line position).IsBalanced)
    (hNamed : cut.svara.isContinuation = false)
    (hProper : cut.IsProper) :
    (cut.partLine position).IsBalanced := by
  have hLength := hBalanced.length_eq
  have hDuration := hBalanced.duration_pos
  have hNone := hBalanced.noneContinues
  simp only [line, svaras, gamakas] at hLength hDuration hNone
  refine ⟨?_, ?_, ?_⟩
  · simp only [partLine, partSvaras, partGamakas,
      List.length_append, List.length_cons] at hLength ⊢
    omega
  · intro svara hSvara
    simp only [partLine, partSvaras, List.mem_append,
      List.mem_cons] at hSvara
    rcases hSvara with hBefore | rfl | rfl | hAfter
    · exact hDuration svara (by simp [hBefore])
    · exact hProper.units_pos
    · exact Nat.le_sub_of_add_le
        (Nat.add_comm 1 _ ▸ hProper.units_lt)
    · exact hDuration svara (by simp [hAfter])
  · intro svara hSvara
    cases hBefore : cut.svarasBefore with
    | nil =>
        simp only [partLine, partSvaras, hBefore,
          List.nil_append, List.tail_cons,
          List.mem_cons] at hSvara hNone
        rcases hSvara with rfl | hAfter
        · exact hNamed
        · exact hNone svara hAfter
    | cons first rest =>
        simp only [partLine, partSvaras, hBefore,
          List.cons_append, List.tail_cons, List.mem_append,
          List.mem_cons] at hSvara hNone
        rcases hSvara with hRest | rfl | rfl | hAfter
        · exact hNone svara (by simp [hRest])
        · exact hNamed
        · exact hNamed
        · exact hNone svara (by simp [hAfter])

/- Where a line is written, so are its parts, with a name in
place of a hold and the gamaka twice. -/
theorem exists_writing_of_line
    {cut : Cut}
    {position : Position}
    {own : List Token}
    (hBalanced : (cut.line position).IsBalanced)
    (hOwn : (cut.line position).WrittenBy own) :
    ∃ writing : Writing,
      writing.IsOf cut ∧
        own = writing.tokens cut ∧
        (cut.IsProper →
          (cut.partLine position).WrittenBy
            (writing.parts cut)) := by
  rcases hOwn with
    ⟨first, firstEnd, second, secondEnd, svaraTokens, rfl,
      hFirst, hPosition, hFirstEnd, hSecond, hSecondEnd,
      hSvaras⟩
  rcases hSvaras.exists_of_append with
    ⟨front, later, rfl, hFront, hLater⟩
  cases hLater with
  | @cons _ _ whole after hWhole hAfter =>
      rcases hWhole with ⟨holds, rfl, hHolds, hDuration⟩
      let writing : Writing :=
        { front := first :: front
          holds := holds
          middle :=
            after ++
              firstEnd :: second ::
                cut.gamakasBefore.map Gamaka.token
          behind :=
            cut.gamakasAfter.map Gamaka.token ++ [secondEnd] }
      have hNone :
          Svara.NoneContinues cut.svarasAfter := by
        intro svara hSvara
        apply hBalanced.noneContinues
        simp only [line, svaras]
        cases cut.svarasBefore <;> simp [hSvara]
      have hHead :
          ∀ token ∈
              (after ++
                firstEnd :: second ::
                  (cut.gamakasBefore.map Gamaka.token ++
                    [cut.gamaka.token])).head?,
            token.isContinuation = false :=
        Line.head?_svaras_not_continuation hAfter hNone
          hFirstEnd
      have hWriting : writing.IsOf cut :=
        ⟨hHolds, by simpa [writing] using hHead, hDuration⟩
      refine ⟨writing, hWriting, ?_, ?_⟩
      · simp [Writing.tokens, writing, line, gamakas]
      · intro hProper
        rcases hWriting.writtenBy_parts hProper with
          ⟨hUpTo, hBeyond⟩
        refine ⟨first, firstEnd, second, secondEnd, _, ?_,
          hFirst, hPosition, hFirstEnd, hSecond, hSecondEnd,
          hFront.append
            (.cons hUpTo (.cons hBeyond hAfter))⟩
        simp [Writing.parts, writing, partLine, partGamakas]

theorem isBalanced_parts
    {cut : Cut}
    {position : Position}
    {before after : List Line}
    (hBalanced :
      Song.IsBalanced ⟨before ++ cut.line position :: after⟩)
    (hNamed : cut.svara.isContinuation = false)
    (hProper : cut.IsProper) :
    Song.IsBalanced
      ⟨before ++ cut.partLine position :: after⟩ := by
  have hLine : (cut.line position).IsBalanced :=
    hBalanced _ (by simp)
  intro other hOther
  rcases List.mem_append.mp hOther with hBefore | hFrom
  · exact hBalanced other (by simp [hBefore])
  · rcases List.mem_cons.mp hFrom with rfl | hAfter
    · exact isBalanced_partLine hLine hNamed hProper
    · exact hBalanced other (by simp [hAfter])

/- Where a song is read, so is the song with both parts of a
svara in place of the whole. -/
theorem exists_writing_of_song
    {cut : Cut}
    {position : Position}
    {before after : List Line}
    {tokens : List Token}
    (hNamed : cut.svara.isContinuation = false)
    (hSong :
      Song.ofTokens tokens =
        .ok ⟨before ++ cut.line position :: after⟩) :
    ∃ writing : Writing,
      writing.IsOf cut ∧
        tokens = writing.tokens cut ∧
        (cut.IsProper →
          Song.ofTokens (writing.parts cut) =
            .ok ⟨before ++ cut.partLine position :: after⟩) := by
  rcases Song.ofTokens_eq_ok_iff.mp hSong with
    ⟨hBalanced, hWritten⟩
  rcases WrittenInOrder.exists_of_append hWritten with
    ⟨front, later, rfl, hFront, hLater⟩
  cases hLater with
  | @cons _ _ own behind hOwn hBehind =>
      rcases exists_writing_of_line (hBalanced _ (by simp))
          hOwn with
        ⟨writing, hWriting, rfl, hParts⟩
      refine ⟨writing.within front behind, ?_, ?_, ?_⟩
      · exact ⟨hWriting.isContinuation,
          hWriting.not_isContinuation, hWriting.length_eq⟩
      · simp [Writing.tokens, Writing.within]
      · intro hProper
        have hOrder := hFront.append
          (.cons (hParts hProper) hBehind)
        refine Song.ofTokens_eq_ok_iff.mpr
          ⟨isBalanced_parts hBalanced hNamed hProper, ?_⟩
        simpa [Song.WrittenBy, Writing.parts,
          Writing.within] using hOrder

end Cut

end Carnatic
