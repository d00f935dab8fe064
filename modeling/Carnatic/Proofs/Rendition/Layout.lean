import Carnatic.Proofs.Rendition.Acceptance
import Carnatic.Proofs.Song.Bare

/-
  Texts of the same words.

  The words of a text are all that is played of it. How blanks
  and line ends separate them has an effect on the places in
  errors, and on nothing else: two texts of the same words
  have the same rendition, or errors of the same cause.

  Main declarations:
    * `Song.ofWords` and `Song.ignoresPlaces_ofWords`
    * `Song.ignoresPlaces_segments`
    * `Performance.ignoresPlaces_ofSegments`
    * `Rendition.ignoresPlaces_ofSong`
    * `Rendition.ofWords` and `Rendition.ofText_eq_ofWords`
    * `Rendition.SameButPlace`
    * `Rendition.sameButPlace_of_words`
-/

------------------------------------------------------------
-- Words And Songs
------------------------------------------------------------

namespace Carnatic

/- A word has its class from its letters alone. -/
theorem Word.ignoresPlaces_token :
    IgnoresPlaces Word.text Token.bare Word.token := by
  intro word other hText
  simp only [Word.token, Scanner.classify, hText]
  cases TokenKind.ofWord? other.text <;> rfl

/- The song that words write. -/
def Song.ofWords (words : List Word) : Except SongError Song :=
  match words.mapM Word.token with
  | .error error => .error error
  | .ok tokens => ofTokens tokens

theorem Song.ofText_eq_ofWords (text : String) :
    ofText text = ofWords (wordsOf text) := by
  rw [ofText, ofWords, ← Token.ofText_eq_mapM]
  cases Token.ofText text <;> rfl

/- The song of some words has its places from them, and all
else from their texts. -/
theorem Song.ignoresPlaces_ofWords :
    IgnoresPlaces (List.map Word.text) Song.bare ofWords := by
  refine Word.ignoresPlaces_token.mapM.andThen
    ignoresPlaces_ofTokens ?_ ?_
  · intro words error hTokens
    simp only [ofWords, hTokens]
  · intro words tokens hTokens
    simp only [ofWords, hTokens]

------------------------------------------------------------
-- Segments
------------------------------------------------------------

variable {R : Type} [Scalar R]

/- A segment that stands nowhere. -/
def Segment.bare (segment : Segment R) : Segment R :=
  { segment with position := Position.origin }

namespace Song

theorem ignoresPlaces_pitch :
    IgnoresPlaces Svara.bare id Svara.pitch := by
  have hBare :
      ∀ svara : Svara,
        unplaced id svara.bare.pitch =
          unplaced id svara.pitch := by
    intro svara
    simp only [Svara.pitch, Svara.bare]
    cases Pitch.ofName? svara.name <;> rfl
  exact .of_kept hBare

theorem ignoresPlaces_offsetsOf :
    IgnoresPlaces (List.map Svara.bare) id offsetsOf := by
  intro svaras others hSame
  have hPitches :=
    ignoresPlaces_pitch.mapM svaras others hSame
  rw [← pitchesOf_eq_mapM, ← pitchesOf_eq_mapM,
    List.map_id_fun] at hPitches
  rcases unplaced_eq_iff.mp hPitches with
    ⟨pitches, same, hRead, hOther, rfl⟩ |
      ⟨error, fault, hError, hFault, hCause⟩
  · simp only [offsetsOf, hRead, hOther, id_eq]
    cases Pitch.carryForward pitches with
    | some offsets => rfl
    | none =>
        -- Both lists of svaras are empty, or neither is.
        cases svaras <;> cases others <;> simp_all [unplaced]
  · simp only [offsetsOf, hError, hFault, unplaced, hCause]

theorem ignoresPlaces_curvesOf (registry : Registry R) :
    IgnoresPlaces (List.map Gamaka.bare) id
      (curvesOf registry) := by
  have hBare :
      ∀ gamaka : Gamaka,
        unplaced id (registry.curveOf gamaka.bare) =
          unplaced id (registry.curveOf gamaka) := by
    intro gamaka
    simp only [Registry.curveOf, Gamaka.bare]
    cases registry.get? gamaka.name <;> rfl
  intro gamakas others hSame
  rw [curvesOf_eq_mapM, curvesOf_eq_mapM, ← List.map_id_fun]
  exact (IgnoresPlaces.of_kept hBare).mapM _ _ hSame

/- Segments hand the places of their svaras on. -/
theorem join_map_bare
    (svaras : List Svara)
    (offsets : List Int)
    (curves : List (Curve R)) :
    join (svaras.map Svara.bare) offsets curves =
      (join svaras offsets curves).map Segment.bare := by
  induction svaras generalizing offsets curves with
  | nil => rfl
  | cons svara rest ih =>
      cases offsets with
      | nil => rfl
      | cons offset offsets =>
          cases curves with
          | nil => rfl
          | cons curve curves =>
              rw [List.map_cons, join, ih]
              rfl

/- The segments of a song have their places from its svaras,
and all else from the song without places. -/
theorem ignoresPlaces_segments (registry : Registry R) :
    IgnoresPlaces Song.bare (List.map Segment.bare)
      fun song => song.segments registry := by
  intro song other hSame
  have hSvaras := congrArg Song.svaras hSame
  have hGamakas := congrArg Song.gamakas hSame
  rw [svaras_bare, svaras_bare] at hSvaras
  rw [gamakas_bare, gamakas_bare] at hGamakas
  unfold segments
  rcases unplaced_eq_iff.mp
      (ignoresPlaces_offsetsOf _ _ hSvaras) with
    ⟨offsets, same, hOffsets, hOther, rfl⟩ |
      ⟨error, fault, hError, hFault, hCause⟩
  · rcases unplaced_eq_iff.mp
        (ignoresPlaces_curvesOf registry _ _ hGamakas) with
      ⟨curves, same, hCurves, hOtherCurves, rfl⟩ |
        ⟨error, fault, hError, hFault, hCause⟩
    · simp only [hOffsets, hOther, hCurves, hOtherCurves,
        unplaced, id_eq, ← join_map_bare, hSvaras]
    · simp only [hOffsets, hOther, hError, hFault, unplaced,
        hCause]
  · simp only [hError, hFault, unplaced, hCause]

end Song

------------------------------------------------------------
-- Performances
------------------------------------------------------------

namespace Performance

/- A place is looked at for an error only. -/
theorem unplaced_segment_bare
    (performance : Performance R)
    (segment : Segment R) :
    unplaced id (performance.segment segment.bare) =
      unplaced id (performance.segment segment) := by
  have hNote :
      noteOf? performance.settings segment.bare =
        noteOf? performance.settings segment := rfl
  simp only [Performance.segment, hNote]
  cases noteOf? performance.settings segment <;> rfl

theorem unplaced_segments_map_bare
    (performance : Performance R)
    (tune : List (Segment R)) :
    unplaced id (performance.segments (tune.map Segment.bare)) =
      unplaced id (performance.segments tune) := by
  induction tune generalizing performance with
  | nil => rfl
  | cons segment rest ih =>
      rw [List.map_cons, segments, segments]
      rcases unplaced_eq_iff.mp
          (performance.unplaced_segment_bare segment) with
        ⟨reached, same, hReached, hSame, rfl⟩ |
          ⟨error, fault, hError, hFault, hCause⟩
      · simp only [hReached, hSame, id_eq, ih]
      · simp only [hError, hFault, unplaced, hCause]

/- What is played of some segments does not depend on their
places. -/
theorem ignoresPlaces_ofSegments (settings : Settings R) :
    IgnoresPlaces (List.map Segment.bare) id
      (ofSegments settings) := by
  have hTune :
      IgnoresPlaces (List.map Segment.bare) id
        (start settings).segments :=
    .of_kept (start settings).unplaced_segments_map_bare
  intro tune other hSame
  unfold ofSegments
  rcases unplaced_eq_iff.mp (hTune tune other hSame) with
    ⟨reached, same, hReached, hOther, rfl⟩ |
      ⟨error, fault, hError, hFault, hCause⟩
  · simp only [hReached, hOther, id_eq]
  · simp only [hError, hFault, unplaced, hCause]

end Performance

------------------------------------------------------------
-- Renditions
------------------------------------------------------------

namespace Rendition

theorem ignoresPlaces_ofSong
    (settings : Settings R)
    (registry : Registry R) :
    IgnoresPlaces Song.bare id (ofSong settings registry) := by
  intro song other hSame
  unfold ofSong
  rcases unplaced_eq_iff.mp
      (Song.ignoresPlaces_segments registry _ _ hSame) with
    ⟨tune, same, hTune, hOther, hSame⟩ |
      ⟨error, fault, hError, hFault, hCause⟩
  · have hLength := congrArg List.length hSame
    rw [List.length_map, List.length_map] at hLength
    rcases unplaced_eq_iff.mp
        (Performance.ignoresPlaces_ofSegments settings
          tune same hSame) with
      ⟨events, played, hEvents, hPlayed, rfl⟩ |
        ⟨error, fault, hError, hFault, hCause⟩
    · simp only [hTune, hOther, hEvents, hPlayed, hLength,
        id_eq]
    · simp only [hTune, hOther, hError, hFault, unplaced,
        hCause]
  · simp only [hError, hFault, unplaced, hCause]

/- Render words. -/
def ofWords
    (settings : Settings R)
    (registry : Registry R)
    (words : List Word) : Except SongError Rendition :=
  match Song.ofWords words with
  | .error error => .error error
  | .ok song => ofSong settings registry song

theorem ofText_eq_ofWords
    (settings : Settings R)
    (registry : Registry R)
    (text : String) :
    ofText settings registry text =
      ofWords settings registry (wordsOf text) := by
  unfold ofWords ofText Segment.ofText
  rw [← Song.ofText_eq_ofWords]
  cases Song.ofText text <;> rfl

/- What is rendered of words depends on their texts only. -/
theorem ignoresPlaces_ofWords
    (settings : Settings R)
    (registry : Registry R) :
    IgnoresPlaces (List.map Word.text) id
      (ofWords settings registry) := by
  refine Song.ignoresPlaces_ofWords.andThen
    (ignoresPlaces_ofSong settings registry) ?_ ?_
  · intro words error hSong
    simp only [ofWords, hSong]
  · intro words song hSong
    simp only [ofWords, hSong]

theorem ignoresPlaces_ofText
    (settings : Settings R)
    (registry : Registry R) :
    IgnoresPlaces
      (fun text => (wordsOf text).map Word.text)
      id (ofText settings registry) := by
  intro text other hWords
  rw [ofText_eq_ofWords, ofText_eq_ofWords]
  exact ignoresPlaces_ofWords settings registry _ _ hWords

/-
  Two outcomes that differ at most in a place. Either both
  texts are rendered, with the same events and the same number
  of segments. Or both are refused, in the same stage, for the
  same cause with all that it names and counts, and with the
  same message.
-/
inductive SameButPlace :
    Except SongError Rendition →
      Except SongError Rendition → Prop
| rendered
    {rendition other : Rendition}
    (hEvents : rendition.events = other.events)
    (hCount :
      rendition.segmentCount = other.segmentCount) :
    SameButPlace (.ok rendition) (.ok other)
| refused
    {error other : SongError}
    (hCause : error.cause = other.cause)
    (hStage : error.stage = other.stage)
    (hMessage : error.message = other.message) :
    SameButPlace (.error error) (.error other)

/- Two texts of the same words in the same order have the same
rendition or the same error, up to its place. -/
theorem sameButPlace_of_words
    (settings : Settings R)
    (registry : Registry R)
    {text other : String}
    (hWords :
      (wordsOf text).map Word.text =
        (wordsOf other).map Word.text) :
    SameButPlace
      (ofText settings registry text)
      (ofText settings registry other) := by
  rcases unplaced_eq_iff.mp
      (ignoresPlaces_ofText settings registry _ _ hWords) with
    ⟨rendition, same, hRead, hOther, rfl⟩ |
      ⟨error, fault, hError, hFault, hCause⟩
  · rw [hRead, hOther]
    exact .rendered rfl rfl
  · rw [hError, hFault]
    refine .refused hCause ?_ ?_
    · rw [SongError.stage, hCause, SongError.stage]
    · rw [SongError.message, hCause, SongError.message]

/- A song on one line, and the same words spread out by wide
blanks and line ends of all kinds. -/
def closePhrase : String :=
  "\x7b sa , pa \x7d \x7b :/ : \x7d"

def widePhrase : String :=
  "\r\n\x7b\u2003sa\t,\n\npa\u3000\x7d\r\x7b :/\u0085\n: \x7d\n\n"

/- A line that lacks a gamaka, at the start of a text and
further down. -/
def closeFault : String :=
  "\x7b sa pa \x7d \x7b : \x7d"

def wideFault : String :=
  "\n\n \x7b\nsa\r\npa\u2028\x7d\x0b\x7b\n\n: \x7d"

theorem sameButPlace_closePhrase :
    closePhrase ≠ widePhrase ∧
      SameButPlace
        (ofText Performance.brisk Registry.builtin
          closePhrase)
        (ofText Performance.brisk Registry.builtin
          widePhrase) ∧
      (ofText Performance.brisk Registry.builtin
        widePhrase).isOk = true ∧
      SameButPlace
        (ofText Performance.brisk Registry.builtin
          closeFault)
        (ofText Performance.brisk Registry.builtin
          wideFault) ∧
      ofText Performance.brisk Registry.builtin closeFault =
        .error ⟨.unequalCounts 2 1, ⟨1, 1⟩⟩ ∧
      ofText Performance.brisk Registry.builtin wideFault =
        .error ⟨.unequalCounts 2 1, ⟨3, 2⟩⟩ := by
  have hPhrase :
      (wordsOf closePhrase).map Word.text =
        (wordsOf widePhrase).map Word.text := by
    decide +kernel
  have hFault :
      (wordsOf closeFault).map Word.text =
        (wordsOf wideFault).map Word.text := by
    decide +kernel
  refine ⟨by decide,
    sameButPlace_of_words _ _ hPhrase, by decide +kernel,
    sameButPlace_of_words _ _ hFault, by decide +kernel,
    by decide +kernel⟩

end Rendition

end Carnatic
