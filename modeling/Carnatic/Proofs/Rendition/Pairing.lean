import Carnatic.Proofs.Rendition.Tune
import Mathlib.Data.List.Chain

/-
  Svaras and their gamakas.

  A tune is built from all svaras and all gamakas of a song,
  without regard to its lines. Each line has as many of the
  one as of the other, so every svara still meets the gamaka
  that stands at its own place in its own line. The segments
  follow each other without a leap: each leads to the start of
  the next one, and the last one stays where it is.

  Main declarations:
    * `Song.getElem?_join`
    * `Song.isChain_join`
    * `Song.before`
    * `Segment.Plays` and `Song.HasTune`
    * `Segment.exists_hasTune_of_ofText`
-/

------------------------------------------------------------
-- Joined Segments
------------------------------------------------------------

namespace Carnatic

variable {R : Type} [Scalar R]

namespace Song

section Join

variable {svaras : List Svara}
variable {offsets : List Int}
variable {curves : List (Curve R)}

/- The segment at an index has all from the svara, the offset
and the curve there, but its target, which is the offset
behind. -/
theorem getElem?_join
    {index : Nat}
    {svara : Svara}
    {offset : Int}
    {curve : Curve R}
    (hSvara : svaras[index]? = some svara)
    (hOffset : offsets[index]? = some offset)
    (hCurve : curves[index]? = some curve) :
    (join svaras offsets curves)[index]? =
      some
        ⟨offset, offsets[index + 1]?.getD offset,
          svara.duration, curve, svara.position⟩ := by
  induction index generalizing svaras offsets curves with
  | zero =>
      rw [← List.head?_eq_getElem?,
        List.head?_eq_some_iff] at hSvara hOffset hCurve
      rcases hSvara with ⟨svaras, rfl⟩
      rcases hOffset with ⟨offsets, rfl⟩
      rcases hCurve with ⟨curves, rfl⟩
      simp [join, List.headD_eq_head?_getD,
        List.head?_eq_getElem?]
  | succ index ih =>
      cases svaras with
      | nil => simp at hSvara
      | cons first svaras =>
          cases offsets with
          | nil => simp at hOffset
          | cons start offsets =>
              cases curves with
              | nil => simp at hCurve
              | cons shape curves =>
                  rw [List.getElem?_cons_succ] at *
                  exact ih hSvara hOffset hCurve

/- The first segment starts on the first offset. -/
theorem head?_offsets_of_join
    {segment : Segment R}
    (hHead :
      (join svaras offsets curves).head? = some segment) :
    offsets.head? = some segment.start := by
  unfold join at hHead
  split at hHead
  · cases hHead
    rfl
  · simp at hHead

/- Each segment leads to where the next one starts. -/
theorem isChain_join
    (svaras : List Svara)
    (offsets : List Int)
    (curves : List (Curve R)) :
    (join svaras offsets curves).IsChain
      fun segment next => segment.target = next.start := by
  fun_induction join svaras offsets curves with
  | case1 svara svaras start offsets curve curves ih =>
      rw [List.isChain_cons]
      refine ⟨?_, ih⟩
      intro next hNext
      rw [List.headD_eq_head?_getD,
        head?_offsets_of_join hNext, Option.getD_some]
  | case2 => exact .nil

/- The last segment stays where it starts. -/
theorem target_getLast_join
    (hOffsets : offsets.length = svaras.length)
    (hCurves : curves.length = svaras.length)
    {last : Segment R}
    (hLast :
      (join svaras offsets curves).getLast? = some last) :
    last.target = last.start := by
  have hLength := length_join hOffsets hCurves
  rw [List.getLast?_eq_getElem?, hLength] at hLast
  have hIndex := (List.getElem?_eq_some_iff.mp hLast).1
  rw [hLength] at hIndex
  have hStart : svaras.length - 1 < offsets.length := by
    omega
  have hShape : svaras.length - 1 < curves.length := by
    omega
  have hJoin := getElem?_join
    (List.getElem?_eq_getElem hIndex)
    (List.getElem?_eq_getElem hStart)
    (List.getElem?_eq_getElem hShape)
  have hNone : offsets[svaras.length - 1 + 1]? = none :=
    List.getElem?_eq_none (by omega)
  rw [hLast, hNone, Option.some.injEq] at hJoin
  rw [hJoin]
  rfl

end Join

/- A gamaka has the curve that is registered under its
name. -/
theorem exists_curve_of_curvesOf
    {registry : Registry R}
    {gamakas : List Gamaka}
    {curves : List (Curve R)}
    (hCurves : curvesOf registry gamakas = .ok curves)
    {index : Nat}
    {gamaka : Gamaka}
    (hGamaka : gamakas[index]? = some gamaka) :
    ∃ curve,
      curves[index]? = some curve ∧
        registry.get? gamaka.name = some curve := by
  rw [curvesOf_eq_mapM, mapM_eq_ok_iff] at hCurves
  rcases List.getElem?_eq_some_iff.mp hGamaka with
    ⟨hIndex, rfl⟩
  have hCurve := hCurves.get hIndex
    (hCurves.length_eq ▸ hIndex)
  refine ⟨_, List.getElem?_eq_getElem
    (hCurves.length_eq ▸ hIndex), ?_⟩
  simp only [List.get_eq_getElem, Registry.curveOf] at hCurve
  split at hCurve
  · rename_i hFound
    rw [hFound, Except.ok.inj hCurve]
  · cases hCurve

------------------------------------------------------------
-- Places In Lines
------------------------------------------------------------

/- The items of all lines in front of a line. -/
def before
    {α : Type}
    (song : Song)
    (items : Line → List α)
    (number : Nat) : List α :=
  (song.lines.take number).flatMap items

/- The items of a line stand behind those of the lines in
front, and before those of the lines behind. -/
theorem exists_flatMap_eq
    {α : Type}
    {song : Song}
    {number : Nat}
    {line : Line}
    (items : Line → List α)
    (hLine : song.lines[number]? = some line) :
    ∃ behind,
      song.lines.flatMap items =
        song.before items number ++
          (items line ++ behind) := by
  rcases List.getElem?_eq_some_iff.mp hLine with
    ⟨hNumber, rfl⟩
  refine ⟨(song.lines.drop (number + 1)).flatMap items, ?_⟩
  rw [before, ← List.flatMap_cons, ← List.flatMap_append,
    List.getElem_cons_drop, List.take_append_drop]

/- An item of a line is found behind those of the lines in
front. -/
theorem getElem?_flatMap_before
    {α : Type}
    {song : Song}
    {number index : Nat}
    {line : Line}
    {item : α}
    (items : Line → List α)
    (hLine : song.lines[number]? = some line)
    (hItem : (items line)[index]? = some item) :
    (song.lines.flatMap items)[
        (song.before items number).length + index]? =
      some item := by
  rcases exists_flatMap_eq items hLine with ⟨behind, hItems⟩
  have hIndex := (List.getElem?_eq_some_iff.mp hItem).1
  rw [hItems, List.getElem?_append_right (Nat.le_add_right _ _),
    Nat.add_sub_cancel_left, List.getElem?_append_left hIndex,
    hItem]

/- The items up to one of a line are those of the lines in
front and those of this line. -/
theorem take_flatMap_before
    {α : Type}
    {song : Song}
    {number index : Nat}
    {line : Line}
    (items : Line → List α)
    (hLine : song.lines[number]? = some line)
    (hIndex : index ≤ (items line).length) :
    (song.lines.flatMap items).take
        ((song.before items number).length + index) =
      song.before items number ++
        (items line).take index := by
  rcases exists_flatMap_eq items hLine with ⟨behind, hItems⟩
  rw [hItems, List.take_length_add_append,
    List.take_append_of_le_length hIndex]

/- In front of a line there are as many gamakas as svaras. -/
theorem length_before
    {song : Song}
    (hBalanced : song.IsBalanced)
    (number : Nat) :
    (song.before Line.gamakas number).length =
      (song.before Line.svaras number).length := by
  have hFront : IsBalanced ⟨song.lines.take number⟩ :=
    fun line hLine =>
      hBalanced line (List.mem_of_mem_take hLine)
  exact length_svaras hFront

------------------------------------------------------------
-- Tunes Of Songs
------------------------------------------------------------

end Song

/-
  The segment of a svara and its gamaka. It starts on the
  offset that the svaras up to this one end on, has its length
  and its place, and bends as the gamaka's name is registered.
-/
structure Segment.Plays
    (segment : Segment R)
    (registry : Registry R)
    (upTo : List Svara)
    (svara : Svara)
    (gamaka : Gamaka) : Prop where
  endOn : Svara.EndOn upTo segment.start
  duration_eq : segment.duration = svara.duration
  position_eq : segment.position = svara.position
  get?_eq : registry.get? gamaka.name = some segment.curve

namespace Song

/-
  The tune of a song: a segment for every svara, which takes
  the gamaka at the same index of the same line; each leads to
  the next one, the last one stays, and none is without a
  length.
-/
structure HasTune
    (song : Song)
    (registry : Registry R)
    (tune : List (Segment R)) : Prop where
  length_eq : tune.length = song.svaras.length
  plays :
    ∀ number index line svara,
      song.lines[number]? = some line →
        line.svaras[index]? = some svara →
          ∃ gamaka segment,
            line.gamakas[index]? = some gamaka ∧
              tune[(song.before Line.svaras number).length +
                  index]? =
                some segment ∧
              segment.Plays registry
                (song.before Line.svaras number ++
                  line.svaras.take (index + 1))
                svara gamaka
  isChain :
    tune.IsChain fun segment next =>
      segment.target = next.start
  stays :
    ∀ last ∈ tune.getLast?, last.target = last.start
  duration_pos : ∀ segment ∈ tune, 1 ≤ segment.duration

variable {song : Song}
variable {registry : Registry R}

/- Svaras and gamakas that are joined without regard to lines
are paired line by line. -/
theorem exists_plays_join
    (hBalanced : song.IsBalanced)
    {offsets : List Int}
    {curves : List (Curve R)}
    (hSound : Svara.SoundAt [] song.svaras offsets)
    (hCurves : curvesOf registry song.gamakas = .ok curves)
    {number index : Nat}
    {line : Line}
    {svara : Svara}
    (hLine : song.lines[number]? = some line)
    (hSvara : line.svaras[index]? = some svara) :
    ∃ gamaka segment,
      line.gamakas[index]? = some gamaka ∧
        (join song.svaras offsets curves)[
            (song.before Line.svaras number).length +
              index]? =
          some segment ∧
        segment.Plays registry
          (song.before Line.svaras number ++
            line.svaras.take (index + 1))
          svara gamaka := by
  have hIndex := (List.getElem?_eq_some_iff.mp hSvara).1
  have hOwn := (hBalanced line
    (List.mem_of_getElem? hLine)).length_eq
  have hGamaka := List.getElem?_eq_getElem (hOwn ▸ hIndex)
  have hSongSvara : song.svaras[
      (song.before Line.svaras number).length + index]? =
        some svara :=
    getElem?_flatMap_before Line.svaras hLine hSvara
  have hSongGamaka : song.gamakas[
      (song.before Line.svaras number).length + index]? =
        some line.gamakas[index] := by
    rw [← length_before hBalanced]
    exact getElem?_flatMap_before Line.gamakas hLine hGamaka
  have hSongIndex :=
    (List.getElem?_eq_some_iff.mp hSongSvara).1
  have hOffset := List.getElem?_eq_getElem
    (hSound.length_eq ▸ hSongIndex)
  rcases exists_curve_of_curvesOf hCurves hSongGamaka with
    ⟨curve, hCurve, hFound⟩
  refine ⟨_, _, hGamaka,
    getElem?_join hSongSvara hOffset hCurve, ?_, rfl, rfl,
    hFound⟩
  have hUpTo := take_flatMap_before Line.svaras hLine hIndex
  have hEnd := hSound.endOn hOffset
  rw [List.nil_append, Nat.add_assoc] at hEnd
  exact hUpTo ▸ hEnd

theorem hasTune_of_segments
    (hBalanced : song.IsBalanced)
    {tune : List (Segment R)}
    (hTune : song.segments registry = .ok tune) :
    song.HasTune registry tune := by
  rcases exists_join_of_segments hBalanced hTune with
    ⟨offsets, curves, hSound, hCurves, hLength, rfl⟩
  refine ⟨length_join hSound.length_eq hLength, ?_,
    isChain_join _ _ _, ?_, ?_⟩
  · intro number index line svara hLine hSvara
    exact exists_plays_join hBalanced hSound hCurves hLine
      hSvara
  · intro last hLast
    exact target_getLast_join hSound.length_eq hLength hLast
  · rw [forall_duration_join hSound.length_eq hLength
      fun duration => 1 ≤ duration]
    intro svara hSvara
    rcases List.mem_flatMap.mp hSvara with
      ⟨line, hLine, hOwn⟩
    exact (hBalanced line hLine).duration_pos svara hOwn

end Song

------------------------------------------------------------
-- Segments Of Texts
------------------------------------------------------------

/- The segments of a text are the tune of the song that it
writes, and renditions count its svaras. -/
theorem Segment.exists_hasTune_of_ofText
    {registry : Registry R}
    {text : String}
    {tune : List (Segment R)}
    (hTune : Segment.ofText registry text = .ok tune) :
    ∃ song,
      Song.ofText text = .ok song ∧
        song.HasTune registry tune ∧
        ∀ settings rendition,
          Rendition.ofText settings registry text =
              .ok rendition →
            rendition.segmentCount = song.svaras.length := by
  rcases Segment.ofText_eq_ok_iff.mp hTune with
    ⟨song, hSong, hSegments⟩
  rcases Song.ofText_eq_ok_iff.mp hSong with
    ⟨tokens, _, hTokens⟩
  have hBalanced := (Song.ofTokens_eq_ok_iff.mp hTokens).1
  have hHasTune :=
    Song.hasTune_of_segments hBalanced hSegments
  refine ⟨song, hSong, hHasTune, ?_⟩
  intro settings rendition hText
  rcases Rendition.ofText_eq_ok_iff.mp hText with
    ⟨played, hPlayed, _, hCount⟩
  rw [hTune, Except.ok.injEq] at hPlayed
  rw [hCount, ← hPlayed, hHasTune.length_eq]

/- A line without svaras, and a line that repeats the svara in
front of it. -/
def pauseText : String :=
  "\x7b sa ri1 \x7d \x7b :/ : \x7d \x7b \x7d \x7b \x7d" ++
    " \x7b , \x7d \x7b :/ \x7d"

theorem Segment.exists_hasTune_pauseText :
    ∃ (song : Song) (tune : List (Segment Rat))
        (rendition : Rendition),
      Song.ofText pauseText = .ok song ∧
        song.HasTune Registry.builtin tune ∧
        Rendition.ofText Performance.brisk Registry.builtin
            pauseText =
          .ok rendition ∧
        rendition.segmentCount = song.svaras.length ∧
        tune.length = 3 := by
  have hLength :
      (Segment.ofText (Registry.builtin : Registry Rat)
          pauseText).map List.length =
        .ok 3 := by
    decide +kernel
  have hOk :
      (Rendition.ofText Performance.brisk Registry.builtin
        pauseText).isOk = true := by
    decide +kernel
  rcases exists_eq_ok_of_map_eq_ok hLength with
    ⟨tune, hTune, hCount⟩
  rcases exists_eq_ok_of_isOk hOk with ⟨rendition, hText⟩
  rcases Segment.exists_hasTune_of_ofText hTune with
    ⟨song, hSong, hHasTune, hCounts⟩
  exact ⟨song, tune, rendition, hSong, hHasTune, hText,
    hCounts Performance.brisk rendition hText, hCount⟩

end Carnatic
