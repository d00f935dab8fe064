import Carnatic.Proofs.Rendition.Acceptance

/-
  The tune of a rendition.

  A rendition plays the segments that its text writes. Each
  stage on the way from the text to the events is described
  by what it is given and what it answers.

  Main declarations:
    * `Song.map_duration_join` and `Song.length_join_eq_min`
    * `Song.exists_join_append`
    * `Song.ofText_eq_ok_iff`
    * `Song.exists_join_of_segments`
    * `Song.segments_single`
    * `Segment.ofText_eq_ok_iff`
    * `Rendition.ofText_eq_ok_iff`
-/

------------------------------------------------------------
-- Joined Segments
------------------------------------------------------------

namespace Carnatic

variable {R : Type} [Scalar R]

namespace Song

section Join

variable {svaras : List Svara}
variable {offsets : List Int}
variable {curves : List (Curve R)}

/- Every svara has a segment of its own length. -/
theorem map_duration_join
    (hOffsets : offsets.length = svaras.length)
    (hCurves : curves.length = svaras.length) :
    (join svaras offsets curves).map Segment.duration =
      svaras.map Svara.duration := by
  induction svaras generalizing offsets curves with
  | nil => rfl
  | cons svara rest ih =>
      rcases List.exists_of_length_succ offsets hOffsets with
        ⟨offset, offsets, rfl⟩
      rcases List.exists_of_length_succ curves hCurves with
        ⟨curve, curves, rfl⟩
      simp only [List.length_cons,
        Nat.add_right_cancel_iff] at hOffsets hCurves
      simp [join, ih hOffsets hCurves]

/- There are as many segments as svaras or curves, whichever
are fewer. -/
theorem length_join_eq_min
    (hOffsets : offsets.length = svaras.length)
    (curves : List (Curve R)) :
    (join svaras offsets curves).length =
      min svaras.length curves.length := by
  induction svaras generalizing offsets curves with
  | nil => simp [join]
  | cons svara rest ih =>
      rcases List.exists_of_length_succ offsets hOffsets with
        ⟨offset, offsets, rfl⟩
      rw [List.length_cons, List.length_cons,
        Nat.add_right_cancel_iff] at hOffsets
      cases curves with
      | nil => simp [join]
      | cons curve curves =>
          simp only [join, List.length_cons, ih hOffsets]
          omega

theorem length_join
    (hOffsets : offsets.length = svaras.length)
    (hCurves : curves.length = svaras.length) :
    (join svaras offsets curves).length =
      svaras.length := by
  rw [length_join_eq_min hOffsets, hCurves, Nat.min_self]

/- What durations of svaras have in common, those of their
segments have. -/
theorem forall_duration_join
    (hOffsets : offsets.length = svaras.length)
    (hCurves : curves.length = svaras.length)
    (property : Nat → Prop) :
    (∀ segment ∈ join svaras offsets curves,
        property segment.duration) ↔
      ∀ svara ∈ svaras, property svara.duration := by
  rw [← List.forall_mem_map (f := Segment.duration),
    map_duration_join hOffsets hCurves, List.forall_mem_map]

/- Svaras that follow others leave their segments as they are,
but for the target of the last one. -/
theorem exists_join_append
    (hOffsets : offsets.length = svaras.length)
    (hCurves : curves.length = svaras.length)
    {before : List (Segment R)}
    {last : Segment R}
    (hJoin :
      join svaras offsets curves = before ++ [last])
    (more : List Svara)
    (later : List Int)
    (others : List (Curve R)) :
    ∃ target after,
      join (svaras ++ more) (offsets ++ later)
          (curves ++ others) =
        before ++ { last with target := target } :: after := by
  induction svaras generalizing offsets curves before with
  | nil => simp [join] at hJoin
  | cons svara rest ih =>
      rcases List.exists_of_length_succ offsets hOffsets with
        ⟨offset, offsets, rfl⟩
      rcases List.exists_of_length_succ curves hCurves with
        ⟨curve, curves, rfl⟩
      simp only [List.length_cons,
        Nat.add_right_cancel_iff] at hOffsets hCurves
      simp only [join, List.cons_append] at hJoin ⊢
      cases before with
      | nil =>
          rw [List.nil_append, List.cons.injEq] at hJoin
          rw [← hJoin.1]
          exact ⟨_, _, rfl⟩
      | cons first before =>
          rw [List.cons_append, List.cons.injEq] at hJoin
          rcases hJoin with ⟨rfl, hRest⟩
          rcases ih hOffsets hCurves hRest with
            ⟨target, after, hLonger⟩
          refine ⟨target, after, ?_⟩
          rw [hLonger]
          -- The next offset is there already.
          cases offsets with
          | nil => simp [join] at hRest
          | cons next offsets => rfl

end Join

------------------------------------------------------------
-- Stages
------------------------------------------------------------

/- The song of a text is the one that its tokens write. -/
theorem ofText_eq_ok_iff
    {text : String}
    {song : Song} :
    ofText text = .ok song ↔
      ∃ tokens,
        Token.ofText text = .ok tokens ∧
          ofTokens tokens = .ok song := by
  unfold ofText
  cases Token.ofText text <;> simp

/- In a balanced song every svara has an offset and a
curve. -/
theorem exists_join_of_segments
    {song : Song}
    {registry : Registry R}
    {tune : List (Segment R)}
    (hBalanced : song.IsBalanced)
    (hTune : song.segments registry = .ok tune) :
    ∃ offsets curves,
      Svara.SoundAt [] song.svaras offsets ∧
        curvesOf registry song.gamakas = .ok curves ∧
        curves.length = song.svaras.length ∧
        tune = join song.svaras offsets curves := by
  rcases segments_eq_ok_iff.mp hTune with
    ⟨offsets, curves, hOffsets, hCurves, hJoin⟩
  have hLength : curves.length = song.svaras.length :=
    (length_curvesOf hCurves).trans (length_svaras hBalanced)
  exact ⟨offsets, curves, soundAt_of_offsetsOf hOffsets,
    hCurves, hLength, hJoin⟩

/- A svara alone is one segment along the curve of its gamaka.
It stays on the offset of the svara. -/
theorem segments_single
    {registry : Registry R}
    {svara : Svara}
    {gamaka : Gamaka}
    {line : Position}
    {offset : Int}
    {curve : Curve R}
    (hOffsets : offsetsOf [svara] = .ok [offset])
    (hCurve : registry.get? gamaka.name = some curve) :
    segments ⟨[⟨[svara], [gamaka], line⟩]⟩ registry =
      .ok
        [⟨offset, offset, svara.duration, curve,
          svara.position⟩] := by
  have hCurves :
      curvesOf registry [gamaka] = .ok [curve] := by
    simp only [curvesOf, hCurve]
  exact segments_eq_ok_iff.mpr
    ⟨[offset], [curve], hOffsets, hCurves, rfl⟩

end Song

/- The segments of a text are those of the song that it
writes. -/
theorem Segment.ofText_eq_ok_iff
    {registry : Registry R}
    {text : String}
    {tune : List (Segment R)} :
    Segment.ofText registry text = .ok tune ↔
      ∃ song,
        Song.ofText text = .ok song ∧
          song.segments registry = .ok tune := by
  unfold Segment.ofText
  cases Song.ofText text <;> simp

/- A rendition has the events of its tune and counts its
segments. -/
theorem Rendition.ofText_eq_ok_iff
    {settings : Settings R}
    {registry : Registry R}
    {text : String}
    {rendition : Rendition} :
    ofText settings registry text = .ok rendition ↔
      ∃ tune,
        Segment.ofText registry text = .ok tune ∧
          Performance.ofSegments settings tune =
            .ok rendition.events ∧
          rendition.segmentCount = tune.length := by
  cases hSong : Song.ofText text with
  | error error => simp [ofText, Segment.ofText, hSong]
  | ok song =>
      have hText :
          ofText settings registry text =
            ofSong settings registry song := by
        simp only [ofText, Segment.ofText, hSong]
        rfl
      rw [hText, ofSong_eq_ok_iff]
      simp only [Segment.ofText, hSong]

end Carnatic
