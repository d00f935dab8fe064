import Carnatic.Proofs.Performance.Schedule
import Carnatic.Proofs.Song.Grammar
import Carnatic.Proofs.Song.Resolution
import Carnatic.Rendition

/-
  Songs that can be played.

  A song can be played when its svaras have pitches, no
  continuation leads, its gamakas have curves, and a device
  has all its notes. The notes are looked for last, and the
  first svara without one is reported.

  Main declarations:
    * `Performance.segments_eq_error_iff`
    * `Song.IsPlayable` and `Song.Fails`
    * `Rendition.ofSong_eq_ok_iff`
    * `Rendition.ofSong_eq_error_iff`
    * `Rendition.exists_ofSong_iff`
-/

------------------------------------------------------------
-- Notes Of Segments
------------------------------------------------------------

namespace Carnatic

variable {R : Type} [Scalar R]

/- The notes of a device, counted from a shruti. -/
def Settings.HasNote
    (settings : Settings R)
    (offset : Int) : Prop :=
  0 ≤ settings.shruti.toNat + offset ∧
    settings.shruti.toNat + offset ≤ 127

namespace Performance

theorem noteOf?_eq_none_iff
    {settings : Settings R}
    {segment : Segment R} :
    noteOf? settings segment = none ↔
      ¬ settings.HasNote segment.start := by
  unfold noteOf? Settings.HasNote
  simp

/- A segment plays when a device has its note. -/
theorem segment_cases
    (performance : Performance R)
    (segment : Segment R) :
    (¬ performance.settings.HasNote segment.start ∧
        performance.segment segment =
          .error
            (noteError performance.settings segment)) ∨
      performance.settings.HasNote segment.start ∧
        ∃ reached,
          performance.segment segment = .ok reached ∧
            reached.settings = performance.settings := by
  cases hNote : noteOf? performance.settings segment with
  | none =>
      refine .inl ⟨noteOf?_eq_none_iff.mp hNote, ?_⟩
      simp only [Performance.segment, hNote]
  | some note =>
      refine .inr ⟨?_, _,
        segment_eq_ok_iff.mpr ⟨note, hNote, rfl⟩, by simp⟩
      by_contra hRange
      rw [noteOf?_eq_none_iff.mpr hRange] at hNote
      simp at hNote

/- Segments fail exactly when a device lacks some note, and
the first such note is reported. -/
theorem segments_eq_error_iff
    {performance : Performance R}
    {tune : List (Segment R)}
    {error : SongError} :
    performance.segments tune = .error error ↔
      ∃ segment,
        IsFirstWithout
            (fun other : Segment R =>
              performance.settings.HasNote other.start)
            tune segment ∧
          error = noteError performance.settings segment := by
  induction tune generalizing performance with
  | nil => simp [segments, not_isFirstWithout_nil]
  | cons head rest ih =>
      simp only [isFirstWithout_cons_iff]
      rcases performance.segment_cases head with
        ⟨hNone, hRead⟩ | ⟨hNote, reached, hRead, hSettings⟩
      · simp [segments, hRead, hNone, eq_comm]
      · simp [segments, hRead, hNote, ih, hSettings]

theorem ofSegments_eq_error_iff
    {settings : Settings R}
    {tune : List (Segment R)}
    {error : SongError} :
    ofSegments settings tune = .error error ↔
      ∃ segment,
        IsFirstWithout
            (fun other : Segment R =>
              settings.HasNote other.start)
            tune segment ∧
          error = noteError settings segment := by
  have hRead :
      ofSegments settings tune = .error error ↔
        (start settings).segments tune = .error error := by
    unfold ofSegments
    cases (start settings).segments tune <;> simp
  exact hRead.trans segments_eq_error_iff

end Performance

------------------------------------------------------------
-- Notes Of Svaras
------------------------------------------------------------

/- Svaras that end on an offset whose note a device has. -/
def Svara.EndOnNote
    (settings : Settings R)
    (svaras : List Svara) : Prop :=
  ∃ offset, Svara.EndOn svaras offset ∧
    settings.HasNote offset

namespace Song

/- Every segment starts on the offset of its svara, and stands
where the svara does. -/
theorem map_join
    {svaras : List Svara}
    {offsets : List Int}
    {curves : List (Curve R)}
    (hOffsets : offsets.length = svaras.length)
    (hCurves : curves.length = svaras.length) :
    (join svaras offsets curves).map
        (fun segment => (segment.start, segment.position)) =
      offsets.zip (svaras.map Svara.position) := by
  induction svaras generalizing offsets curves with
  | nil =>
      rw [List.length_nil, List.length_eq_zero_iff] at hOffsets
      rw [hOffsets]
      rfl
  | cons svara rest ih =>
      rcases List.exists_of_length_succ offsets hOffsets with
        ⟨offset, offsets, rfl⟩
      rcases List.exists_of_length_succ curves hCurves with
        ⟨curve, curves, rfl⟩
      simp only [List.length_cons,
        Nat.add_right_cancel_iff] at hOffsets hCurves
      simp [join, ih hOffsets hCurves]

section Joined

variable {svaras : List Svara}
variable {offsets : List Int}
variable {curves : List (Curve R)}

/- The segment of a svara. -/
theorem exists_svara_of_join
    (hSound : Svara.SoundAt [] svaras offsets)
    (hCurves : curves.length = svaras.length)
    {index : Nat}
    {segment : Segment R}
    (hSegment :
      (join svaras offsets curves)[index]? = some segment) :
    ∃ svara,
      svaras[index]? = some svara ∧
        segment.position = svara.position ∧
        Svara.EndOn (svaras.take (index + 1))
          segment.start := by
  have hJoin := congrArg (fun pairs => pairs[index]?)
    (map_join hSound.length_eq hCurves)
  simp only [List.getElem?_map, hSegment,
    Option.map_some] at hJoin
  rcases List.getElem?_zip_eq_some.mp hJoin.symm with
    ⟨hStart, hPosition⟩
  rw [List.getElem?_map, Option.map_eq_some_iff] at hPosition
  rcases hPosition with ⟨svara, hSvara, hSame⟩
  exact ⟨svara, hSvara, hSame.symm, hSound.endOn hStart⟩

theorem exists_join_of_lt
    (hSound : Svara.SoundAt [] svaras offsets)
    (hCurves : curves.length = svaras.length)
    {index : Nat}
    (hIndex : index < svaras.length) :
    ∃ segment,
      (join svaras offsets curves)[index]? =
        some segment := by
  have hLength := congrArg List.length
    (map_join hSound.length_eq hCurves)
  rw [List.length_map, List.length_zip, List.length_map,
    hSound.length_eq, Nat.min_self] at hLength
  exact ⟨_, List.getElem?_eq_getElem (hLength ▸ hIndex)⟩

/- The first segment without a note is that of the first svara
up to which the svaras end on none. -/
theorem isFirstWithout_join_iff
    (hSound : Svara.SoundAt [] svaras offsets)
    (hCurves : curves.length = svaras.length)
    {settings : Settings R}
    {error : SongError} :
    (∃ segment,
        IsFirstWithout
            (fun other : Segment R =>
              settings.HasNote other.start)
            (join svaras offsets curves) segment ∧
          error =
            Performance.noteError settings segment) ↔
      ∃ (index : Nat) (svara : Svara) (offset : Int),
        svaras[index]? = some svara ∧
          (∀ earlier < index,
            Svara.EndOnNote settings
              (svaras.take (earlier + 1))) ∧
          Svara.EndOn (svaras.take (index + 1)) offset ∧
          ¬ settings.HasNote offset ∧
          error =
            ⟨.noteOutOfRange
              (settings.shruti.toNat + offset),
              svara.position⟩ := by
  simp only [isFirstWithout_iff_getElem?]
  constructor
  · rintro ⟨segment, ⟨index, hSegment, hEarlier, hNone⟩,
      rfl⟩
    rcases exists_svara_of_join hSound hCurves hSegment with
      ⟨svara, hSvara, hPosition, hEnd⟩
    refine ⟨index, svara, segment.start, hSvara, ?_, hEnd,
      hNone, ?_⟩
    · intro earlier hLt
      have hIndex := (List.getElem?_eq_some_iff.mp hSvara).1
      rcases exists_join_of_lt hSound hCurves
          (hLt.trans hIndex) with
        ⟨other, hOther⟩
      rcases exists_svara_of_join hSound hCurves hOther with
        ⟨_, _, _, hOtherEnd⟩
      exact ⟨other.start, hOtherEnd,
        hEarlier earlier hLt other hOther⟩
    · rw [Performance.noteError, hPosition]
  · rintro ⟨index, svara, offset, hSvara, hEarlier, hEnd,
      hNone, rfl⟩
    have hIndex := (List.getElem?_eq_some_iff.mp hSvara).1
    rcases exists_join_of_lt hSound hCurves hIndex with
      ⟨segment, hSegment⟩
    rcases exists_svara_of_join hSound hCurves hSegment with
      ⟨other, hOther, hPosition, hStart⟩
    rw [hSvara, Option.some.injEq] at hOther
    subst hOther
    have hSame := hEnd.unique hStart
    subst hSame
    refine ⟨segment, ⟨index, hSegment, ?_, hNone⟩, ?_⟩
    · intro earlier hLt other hOther
      rcases exists_svara_of_join hSound hCurves hOther with
        ⟨_, _, _, hOtherEnd⟩
      rcases hEarlier earlier hLt with
        ⟨reached, hReached, hNote⟩
      rwa [hOtherEnd.unique hReached]
    · rw [Performance.noteError, hPosition]

end Joined

------------------------------------------------------------
-- Playable Songs
------------------------------------------------------------

/- What a song needs to be played: every name of a svara is
known, no continuation leads, every gamaka is registered, and
the svaras up to each one end on a note. -/
structure IsPlayable
    (song : Song)
    (settings : Settings R)
    (registry : Registry R) : Prop where
  pitches : ∀ svara ∈ song.svaras, svara.HasPitch
  leads : Svara.Leads song.svaras
  gamakas :
    ∀ gamaka ∈ song.gamakas, gamaka.name ∈ registry.names
  notes :
    ∀ index < song.svaras.length,
      Svara.EndOnNote settings (song.svaras.take (index + 1))

/-
  The error of a song that cannot be played. It is about the
  first svara or gamaka that lacks what a song needs, where
  the song has all that is asked for before.
-/
inductive Fails
    (song : Song)
    (settings : Settings R)
    (registry : Registry R) : SongError → Prop
| svara
    {svara : Svara}
    (hSvara :
      IsFirstWithout Svara.HasPitch song.svaras svara) :
    Fails song settings registry
      ⟨.unknownSvara svara.name, svara.position⟩
| continuation
    {first : Svara}
    {rest : List Svara}
    (hPitches : ∀ svara ∈ song.svaras, svara.HasPitch)
    (hSvaras : song.svaras = first :: rest)
    (hFirst : first.isContinuation = true) :
    Fails song settings registry
      ⟨.leadingContinuation, first.position⟩
| gamaka
    {gamaka : Gamaka}
    (hPitches : ∀ svara ∈ song.svaras, svara.HasPitch)
    (hLeads : Svara.Leads song.svaras)
    (hGamaka :
      IsFirstWithout
        (fun other : Gamaka => other.name ∈ registry.names)
        song.gamakas gamaka) :
    Fails song settings registry
      ⟨.unknownGamaka gamaka.name, gamaka.position⟩
| note
    {index : Nat}
    {svara : Svara}
    {offset : Int}
    (hPitches : ∀ svara ∈ song.svaras, svara.HasPitch)
    (hLeads : Svara.Leads song.svaras)
    (hGamakas :
      ∀ gamaka ∈ song.gamakas, gamaka.name ∈ registry.names)
    (hSvara : song.svaras[index]? = some svara)
    (hEarlier :
      ∀ earlier < index,
        Svara.EndOnNote settings
          (song.svaras.take (earlier + 1)))
    (hEnd :
      Svara.EndOn (song.svaras.take (index + 1)) offset)
    (hNote : ¬ settings.HasNote offset) :
    Fails song settings registry
      ⟨.noteOutOfRange (settings.shruti.toNat + offset),
        svara.position⟩

theorem Fails.stage_eq
    {song : Song}
    {settings : Settings R}
    {registry : Registry R}
    {error : SongError}
    (hFails : song.Fails settings registry error) :
    error.stage = .music := by
  cases hFails <;> rfl

/- What a song lacks for its segments, it lacks for being
played. -/
theorem Lacks.fails
    {song : Song}
    {registry : Registry R}
    {error : SongError}
    (hLacks : song.Lacks registry error)
    (settings : Settings R) :
    song.Fails settings registry error := by
  cases hLacks with
  | svara hSvara => exact .svara hSvara
  | continuation hPitches hSvaras hFirst =>
      exact .continuation hPitches hSvaras hFirst
  | gamaka hPitches hLeads hGamaka =>
      exact .gamaka hPitches hLeads hGamaka

/- A song without a fault has all that it needs. -/
theorem isPlayable_of_not_fails
    {song : Song}
    {settings : Settings R}
    {registry : Registry R}
    (hNone : ¬ ∃ error, song.Fails settings registry error) :
    song.IsPlayable settings registry := by
  have hResolved : song.IsResolved registry := by
    rw [isResolved_iff_not_lacks]
    rintro ⟨error, hLacks⟩
    exact hNone ⟨error, hLacks.fails settings⟩
  rcases hResolved with ⟨hPitches, hLeads, hGamakas⟩
  rcases exists_offsetsOf hPitches hLeads with
    ⟨offsets, _, hSound⟩
  refine ⟨hPitches, hLeads, hGamakas, ?_⟩
  intro index hIndex
  -- A first svara without a note has notes before it.
  induction index using Nat.strongRecOn with
  | ind index ih =>
      have hOffset := List.getElem?_eq_getElem
        (hSound.length_eq ▸ hIndex)
      have hEnd := hSound.endOn hOffset
      refine ⟨_, hEnd, ?_⟩
      by_contra hNote
      refine hNone ⟨_, .note hPitches hLeads hGamakas
        (List.getElem?_eq_getElem hIndex) ?_ hEnd hNote⟩
      intro earlier hLt
      exact ih earlier hLt (hLt.trans hIndex)

/- A song can be played exactly when it has no fault. -/
theorem isPlayable_iff_not_fails
    {song : Song}
    {settings : Settings R}
    {registry : Registry R} :
    song.IsPlayable settings registry ↔
      ¬ ∃ error, song.Fails settings registry error := by
  refine ⟨?_, isPlayable_of_not_fails⟩
  rintro hPlayable ⟨error, hFails⟩
  have hNone := isResolved_iff_not_lacks.mp
    ⟨hPlayable.pitches, hPlayable.leads, hPlayable.gamakas⟩
  cases hFails with
  | svara hSvara => exact hNone ⟨_, .svara hSvara⟩
  | continuation hPitches hSvaras hFirst =>
      exact hNone ⟨_, .continuation hPitches hSvaras hFirst⟩
  | gamaka hPitches hLeads hGamaka =>
      exact hNone ⟨_, .gamaka hPitches hLeads hGamaka⟩
  | note _ _ _ hSvara _ hEnd hNote =>
      have hIndex := (List.getElem?_eq_some_iff.mp hSvara).1
      rcases hPlayable.notes _ hIndex with
        ⟨reached, hReached, hHas⟩
      exact hNote (hEnd.unique hReached ▸ hHas)

theorem length_svaras
    {song : Song}
    (hBalanced : song.IsBalanced) :
    song.gamakas.length = song.svaras.length := by
  have hLengths :
      song.lines.map (fun line => line.gamakas.length) =
        song.lines.map fun line => line.svaras.length := by
    apply List.map_congr_left
    intro line hLine
    exact (hBalanced line hLine).length_eq.symm
  simp [gamakas, svaras, List.length_flatMap, hLengths]

end Song

namespace Rendition

/- Render a song that has been read. -/
def ofSong
    (settings : Settings R)
    (registry : Registry R)
    (song : Song) : Except SongError Rendition :=
  match song.segments registry with
  | .error error => .error error
  | .ok tune =>
      match Performance.ofSegments settings tune with
      | .error error => .error error
      | .ok events => .ok ⟨events, tune.length⟩

variable {song : Song}
variable {settings : Settings R}
variable {registry : Registry R}
variable {error : SongError}

/- A rendition has the events of the song's segments, and
counts these. -/
theorem ofSong_eq_ok_iff {rendition : Rendition} :
    ofSong settings registry song = .ok rendition ↔
      ∃ tune,
        song.segments registry = .ok tune ∧
          Performance.ofSegments settings tune =
            .ok rendition.events ∧
          rendition.segmentCount = tune.length := by
  unfold ofSong
  cases song.segments registry with
  | error error => simp
  | ok tune =>
      rcases rendition with ⟨events, count⟩
      simp only [Except.ok.injEq, exists_eq_left']
      cases Performance.ofSegments settings tune with
      | error error => simp
      | ok played => simp [eq_comm]

/- Where all offsets and curves are known, the first svara
without a note is the only fault left. -/
theorem ofSong_eq_error_iff_of_known
    {offsets : List Int}
    {curves : List (Curve R)}
    (hBalanced : song.IsBalanced)
    (hOffsets : Song.offsetsOf song.svaras = .ok offsets)
    (hSound : Svara.SoundAt [] song.svaras offsets)
    (hCurves :
      Song.curvesOf registry song.gamakas = .ok curves) :
    ofSong settings registry song = .error error ↔
      ∃ (index : Nat) (svara : Svara) (offset : Int),
        song.svaras[index]? = some svara ∧
          (∀ earlier < index,
            Svara.EndOnNote settings
              (song.svaras.take (earlier + 1))) ∧
          Svara.EndOn (song.svaras.take (index + 1)) offset ∧
          ¬ settings.HasNote offset ∧
          error =
            ⟨.noteOutOfRange
              (settings.shruti.toNat + offset),
              svara.position⟩ := by
  have hLength : curves.length = song.svaras.length :=
    (Song.length_curvesOf hCurves).trans
      (Song.length_svaras hBalanced)
  have hSong :
      ofSong settings registry song = .error error ↔
        Performance.ofSegments settings
            (Song.join song.svaras offsets curves) =
          .error error := by
    simp only [ofSong, Song.segments, hOffsets, hCurves]
    cases Performance.ofSegments settings
      (Song.join song.svaras offsets curves) <;> simp
  exact (hSong.trans
    Performance.ofSegments_eq_error_iff).trans
      (Song.isFirstWithout_join_iff hSound hLength)

/- A song without segments is not rendered. -/
theorem ofSong_of_lacks
    (hLacks : song.Lacks registry error) :
    ofSong settings registry song = .error error := by
  simp only [ofSong, Song.segments_eq_error_iff.mpr hLacks]

/- A song is rendered, or its first fault is the error. -/
theorem ofSong_eq_error_iff
    (hBalanced : song.IsBalanced) :
    ofSong settings registry song = .error error ↔
      song.Fails settings registry error := by
  constructor
  · intro hError
    cases hTune : song.segments registry with
    | error other =>
        have hLacks := Song.segments_eq_error_iff.mp hTune
        rw [ofSong_of_lacks hLacks,
          Except.error.injEq] at hError
        exact hError ▸ hLacks.fails settings
    | ok tune =>
        rcases Song.segments_eq_ok_iff.mp hTune with
          ⟨offsets, curves, hOffsets, hCurves, _⟩
        have hSound := Song.soundAt_of_offsetsOf hOffsets
        rcases (ofSong_eq_error_iff_of_known hBalanced
            hOffsets hSound hCurves).mp hError with
          ⟨index, svara, offset, hSvara, hEarlier, hEnd,
            hNote, rfl⟩
        have hResolved := Song.exists_segments_iff.mp
          ⟨tune, hTune⟩
        exact .note hResolved.pitches hResolved.leads
          hResolved.gamakas hSvara hEarlier hEnd hNote
  · intro hFails
    cases hFails with
    | svara hSvara => exact ofSong_of_lacks (.svara hSvara)
    | continuation hPitches hSvaras hFirst =>
        exact ofSong_of_lacks
          (.continuation hPitches hSvaras hFirst)
    | gamaka hPitches hLeads hGamaka =>
        exact ofSong_of_lacks
          (.gamaka hPitches hLeads hGamaka)
    | note hPitches hLeads hGamakas hSvara hEarlier hEnd
        hNote =>
        rcases Song.exists_offsetsOf hPitches hLeads with
          ⟨offsets, hOffsets, hSound⟩
        rcases Song.exists_curvesOf_iff.mpr hGamakas with
          ⟨curves, hCurves⟩
        exact (ofSong_eq_error_iff_of_known hBalanced
          hOffsets hSound hCurves).mpr
            ⟨_, _, _, hSvara, hEarlier, hEnd, hNote, rfl⟩

/- A song is rendered exactly when it can be played. -/
theorem exists_ofSong_iff
    (hBalanced : song.IsBalanced) :
    (∃ rendition,
        ofSong settings registry song = .ok rendition) ↔
      song.IsPlayable settings registry := by
  rw [Song.isPlayable_iff_not_fails]
  simp only [← ofSong_eq_error_iff hBalanced]
  cases ofSong settings registry song <;> simp

end Rendition

end Carnatic
