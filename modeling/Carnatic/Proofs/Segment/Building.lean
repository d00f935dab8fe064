import Carnatic.Proofs.Rendition.Pairing

/-
  Segments of any song.

  Segments are built from all svaras and all gamakas of a
  song, also where a line has more of the one than of the
  other or a svara has no length. A song whose names all stand
  for something has a segment for every svara that meets a
  gamaka at its index. The segments can be built by indices,
  and no index is ever out of bounds.

  Main declarations:
    * `Song.HasSegments` and `Song.hasSegments_of_segments`
    * `Song.segmentsByIndex?`
    * `Song.segmentsByIndex?_eq`
    * `Song.BuildsSegments` and `Song.buildsSegments`
-/

------------------------------------------------------------
-- Segments At Indices
------------------------------------------------------------

namespace Carnatic

variable {R : Type} [Scalar R]

namespace Song

/-
  The segments of a song: one for each svara that has a gamaka
  at its index. It plays the svara with this gamaka, leads to
  the offset that the svaras up to the next one end on, and
  stays where there is no next svara.
-/
structure HasSegments
    (song : Song)
    (registry : Registry R)
    (tune : List (Segment R)) : Prop where
  length_eq :
    tune.length =
      min song.svaras.length song.gamakas.length
  plays :
    ∀ (index : Nat) (svara : Svara) (gamaka : Gamaka),
      song.svaras[index]? = some svara →
        song.gamakas[index]? = some gamaka →
          ∃ segment,
            tune[index]? = some segment ∧
              segment.Plays registry
                (song.svaras.take (index + 1)) svara gamaka
  leads :
    ∀ (index : Nat) (segment : Segment R),
      tune[index]? = some segment →
        index + 1 < song.svaras.length →
          Svara.EndOn (song.svaras.take (index + 2))
            segment.target
  stays :
    ∀ (index : Nat) (segment : Segment R),
      tune[index]? = some segment →
        index + 1 = song.svaras.length →
          segment.target = segment.start

section Joined

variable {song : Song}
variable {registry : Registry R}
variable {offsets : List Int}
variable {curves : List (Curve R)}

/- The segment at an index has the offset there and the next
one, or the same offset at the end. -/
theorem exists_offset_of_join
    {svaras : List Svara}
    (hOffsets : offsets.length = svaras.length)
    {index : Nat}
    {segment : Segment R}
    (hSegment :
      (join svaras offsets curves)[index]? = some segment) :
    offsets[index]? = some segment.start ∧
      segment.target =
        offsets[index + 1]?.getD segment.start := by
  have hIndex := (List.getElem?_eq_some_iff.mp hSegment).1
  rw [length_join_eq_min hOffsets, Nat.lt_min] at hIndex
  have hOffset := List.getElem?_eq_getElem
    (hOffsets ▸ hIndex.1)
  have hJoin := getElem?_join
    (List.getElem?_eq_getElem hIndex.1) hOffset
    (List.getElem?_eq_getElem hIndex.2)
  rw [hSegment, Option.some.injEq] at hJoin
  rw [hJoin]
  exact ⟨hOffset, rfl⟩

theorem hasSegments_join
    (hSound : Svara.SoundAt [] song.svaras offsets)
    (hCurves : curvesOf registry song.gamakas = .ok curves) :
    song.HasSegments registry
      (join song.svaras offsets curves) := by
  have hEnd :
      ∀ {index : Nat} {offset : Int},
        offsets[index]? = some offset →
          Svara.EndOn (song.svaras.take (index + 1))
            offset := by
    intro index offset hOffset
    exact hSound.endOn hOffset
  refine ⟨?_, ?_, ?_, ?_⟩
  · rw [length_join_eq_min hSound.length_eq,
      length_curvesOf hCurves]
  · intro index svara gamaka hSvara hGamaka
    have hIndex := (List.getElem?_eq_some_iff.mp hSvara).1
    have hOffset := List.getElem?_eq_getElem
      (hSound.length_eq ▸ hIndex)
    rcases exists_curve_of_curvesOf hCurves hGamaka with
      ⟨curve, hCurve, hFound⟩
    exact ⟨_, getElem?_join hSvara hOffset hCurve,
      hEnd hOffset, rfl, rfl, hFound⟩
  · intro index segment hSegment hNext
    have hTarget :=
      (exists_offset_of_join hSound.length_eq hSegment).2
    have hOffset := List.getElem?_eq_getElem
      (hSound.length_eq ▸ hNext)
    rw [hOffset, Option.getD_some] at hTarget
    rw [hTarget]
    exact hEnd hOffset
  · intro index segment hSegment hLast
    have hTarget :=
      (exists_offset_of_join hSound.length_eq hSegment).2
    have hNone : offsets[index + 1]? = none :=
      List.getElem?_eq_none
        (by rw [hSound.length_eq, hLast])
    rw [hTarget, hNone, Option.getD_none]

end Joined

theorem hasSegments_of_segments
    {song : Song}
    {registry : Registry R}
    {tune : List (Segment R)}
    (hTune : song.segments registry = .ok tune) :
    song.HasSegments registry tune := by
  rcases segments_eq_ok_iff.mp hTune with
    ⟨offsets, curves, hOffsets, hCurves, rfl⟩
  exact hasSegments_join (soundAt_of_offsetsOf hOffsets)
    hCurves

end Song

------------------------------------------------------------
-- Building By Indices
------------------------------------------------------------

/-
  The segment of a svara and a curve at an index of some
  offsets, unless the index is out of bounds. Where no offset
  follows, the segment leads to the last one.
-/
def Segment.atIndex?
    (offsets : List Int)
    (last : Int)
    (entry : (Svara × Curve R) × Nat) :
    Option (Segment R) :=
  match offsets[entry.2]? with
  | none => none
  | some start =>
      some
        ⟨start, offsets[entry.2 + 1]?.getD last,
          entry.1.1.duration, entry.1.2, entry.1.1.position⟩

namespace Song

/-
  The segments of a song, built by indices. There is no answer
  where an index is out of bounds: that of the first svara,
  which a leading continuation is reported at, or that of the
  offset of a svara.
-/
def segmentsByIndex?
    (song : Song)
    (registry : Registry R) :
    Option (Except SongError (List (Segment R))) :=
  match pitchesOf song.svaras with
  | .error error => some (.error error)
  | .ok pitches =>
      match Pitch.carryForward pitches with
      | none =>
          match song.svaras[0]? with
          | none => none
          | some first =>
              some (.error
                ⟨.leadingContinuation, first.position⟩)
      | some offsets =>
          match curvesOf registry song.gamakas with
          | .error error => some (.error error)
          | .ok curves =>
              match offsets.getLast? with
              | none => some (.ok [])
              | some last =>
                  ((song.svaras.zip curves).zipIdx.mapM
                    (Segment.atIndex? offsets last)).map
                      Except.ok

/- Behind a front of offsets, the indices that follow the
front are those of the other offsets. -/
theorem mapM_atIndex?
    (front : List Int)
    {svaras : List Svara}
    {offsets : List Int}
    {last : Int}
    (hOffsets : offsets.length = svaras.length)
    (hLast : (front ++ offsets).getLast? = some last)
    (curves : List (Curve R)) :
    ((svaras.zip curves).zipIdx front.length).mapM
        (Segment.atIndex? (front ++ offsets) last) =
      some (join svaras offsets curves) := by
  induction svaras generalizing front offsets curves with
  | nil => rfl
  | cons svara rest ih =>
      rcases List.exists_of_length_succ offsets hOffsets with
        ⟨start, offsets, rfl⟩
      rw [List.length_cons, List.length_cons,
        Nat.add_right_cancel_iff] at hOffsets
      cases curves with
      | nil => rfl
      | cons curve curves =>
          have hShift : front ++ start :: offsets =
              (front ++ [start]) ++ offsets := by simp
          have hRest := ih (front ++ [start]) hOffsets
            (hShift ▸ hLast) curves
          rw [← hShift, List.length_append,
            List.length_singleton] at hRest
          have hHead :
              Segment.atIndex? (front ++ start :: offsets) last
                  ((svara, curve), front.length) =
                some ⟨start, offsets.headD start,
                  svara.duration, curve, svara.position⟩ := by
            cases offsets with
            | nil =>
                rw [List.getLast?_concat,
                  Option.some.injEq] at hLast
                simp [Segment.atIndex?, hLast]
            | cons next offsets => simp [Segment.atIndex?]
          rw [List.zip_cons_cons, List.zipIdx_cons,
            List.mapM_cons, hHead, hRest]
          rfl

/- Where offsets are found, every segment finds its own. -/
theorem segmentsByIndex?_of_offsetsOf
    {song : Song}
    {registry : Registry R}
    {pitches : List Pitch}
    {offsets : List Int}
    (hPitches : pitchesOf song.svaras = .ok pitches)
    (hCarry : Pitch.carryForward pitches = some offsets) :
    song.segmentsByIndex? registry =
      some (song.segments registry) := by
  have hOffsets : offsetsOf song.svaras = .ok offsets := by
    simp only [offsetsOf, hPitches, hCarry]
  have hLength := (soundAt_of_offsetsOf hOffsets).length_eq
  simp only [segmentsByIndex?, segments, hPitches, hCarry,
    hOffsets]
  cases curvesOf registry song.gamakas with
  | error error => rfl
  | ok curves =>
      cases hLast : offsets.getLast? with
      | none =>
          rw [List.getLast?_eq_none_iff] at hLast
          rw [hLast, List.length_nil, eq_comm,
            List.length_eq_zero_iff] at hLength
          simp only [hLength, join]
      | some last =>
          have hBuilt := mapM_atIndex? [] hLength hLast curves
          rw [List.length_nil, List.nil_append] at hBuilt
          simp only [hBuilt, Option.map_some]

/- A continuation that leads is the first svara. -/
theorem segmentsByIndex?_of_continuation
    {song : Song}
    {registry : Registry R}
    {pitches : List Pitch}
    (hPitches : pitchesOf song.svaras = .ok pitches)
    (hCarry : Pitch.carryForward pitches = none) :
    song.segmentsByIndex? registry =
      some (song.segments registry) := by
  cases hSvaras : song.svaras with
  | nil =>
      rw [hSvaras] at hPitches
      cases hPitches
      cases hCarry
  | cons first rest =>
      rw [hSvaras] at hPitches
      simp only [segmentsByIndex?, segments, offsetsOf,
        hSvaras, hPitches, hCarry, List.getElem?_cons_zero]

/- No index is out of bounds, and the segments are those that
are built without indices. -/
theorem segmentsByIndex?_eq
    (song : Song)
    (registry : Registry R) :
    song.segmentsByIndex? registry =
      some (song.segments registry) := by
  cases hPitches : pitchesOf song.svaras with
  | error error =>
      simp only [segmentsByIndex?, segments, offsetsOf,
        hPitches]
  | ok pitches =>
      cases hCarry : Pitch.carryForward pitches with
      | none =>
          exact segmentsByIndex?_of_continuation hPitches
            hCarry
      | some offsets =>
          exact segmentsByIndex?_of_offsetsOf hPitches hCarry

------------------------------------------------------------
-- Every Song
------------------------------------------------------------

/-
  A song reports what it lacks first, and a song that lacks
  nothing has its segments. No index is ever out of bounds.
-/
structure BuildsSegments
    (song : Song)
    (registry : Registry R) : Prop where
  rejects :
    ∀ error : SongError,
      song.segments registry = .error error ↔
        song.Lacks registry error
  accepts :
    (∃ tune, song.segments registry = .ok tune) ↔
      song.IsResolved registry
  builds :
    ∀ tune : List (Segment R),
      song.segments registry = .ok tune →
        song.HasSegments registry tune
  inBounds :
    song.segmentsByIndex? registry =
      some (song.segments registry)

/- Every song has its segments or reports what it lacks. -/
theorem buildsSegments
    (song : Song)
    (registry : Registry R) :
    song.BuildsSegments registry where
  rejects := by
    intro error
    exact segments_eq_error_iff
  accepts := exists_segments_iff
  builds := by
    intro tune hTune
    exact hasSegments_of_segments hTune
  inBounds := song.segmentsByIndex?_eq registry

/- A line with more svaras than gamakas: the second svara has
no gamaka, and yet the first one leads to it. -/
example :
    Song.segments
        ⟨[⟨[⟨"sa", 0, ⟨1, 3⟩⟩, ⟨"pa+", 2, ⟨1, 6⟩⟩],
          [⟨":/", ⟨1, 14⟩⟩], ⟨1, 1⟩⟩]⟩
        (Registry.builtin : Registry Rat) =
      .ok [⟨0, 19, 0, Registry.slide, ⟨1, 3⟩⟩] := by
  decide +kernel

end Song

end Carnatic
