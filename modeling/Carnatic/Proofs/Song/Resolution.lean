import Carnatic.Proofs.NameTable.Order
import Carnatic.Proofs.Pitch.Offsets

/-
  Names of a song that stand for something.

  The segments of a song need a pitch for every svara, a svara
  that names one in front, and a curve for every gamaka. Each
  of these is looked for through the whole song before the
  next one is, and the first svara or gamaka that lacks it is
  reported. How long lines are and how many svaras they have
  does not matter.

  Main declarations:
    * `Song.curvesOf_eq_error_iff`
    * `Song.IsResolved` and `Song.Lacks`
    * `Song.segments_eq_error_iff`
    * `Song.exists_segments_iff`
-/

------------------------------------------------------------
-- Registered Curves
------------------------------------------------------------

namespace Carnatic

variable {R : Type} [Scalar R]

namespace Registry

theorem get?_eq_none_iff
    {registry : Registry R}
    {name : String} :
    registry.get? name = none ↔ name ∉ registry.names :=
  NameTable.get?_eq_none_iff

/- The curve of a gamaka, or the error about its name. -/
def curveOf
    (registry : Registry R)
    (gamaka : Gamaka) : Except SongError (Curve R) :=
  match registry.get? gamaka.name with
  | some curve => .ok curve
  | none =>
      .error ⟨.unknownGamaka gamaka.name, gamaka.position⟩

theorem exists_curveOf_iff
    {registry : Registry R}
    {gamaka : Gamaka} :
    (∃ curve, registry.curveOf gamaka = .ok curve) ↔
      gamaka.name ∈ registry.names := by
  rw [← not_iff_not, ← get?_eq_none_iff]
  cases hCurve : registry.get? gamaka.name <;>
    simp [curveOf, hCurve]

theorem curveOf_eq_error_iff
    {registry : Registry R}
    {gamaka : Gamaka}
    {error : SongError} :
    registry.curveOf gamaka = .error error ↔
      gamaka.name ∉ registry.names ∧
        error =
          ⟨.unknownGamaka gamaka.name, gamaka.position⟩ := by
  rw [← get?_eq_none_iff]
  cases hCurve : registry.get? gamaka.name <;>
    simp [curveOf, hCurve, eq_comm]

end Registry

namespace Song

theorem curvesOf_eq_mapM
    (registry : Registry R)
    (gamakas : List Gamaka) :
    curvesOf registry gamakas =
      gamakas.mapM registry.curveOf := by
  induction gamakas with
  | nil => rfl
  | cons gamaka rest ih =>
      rw [curvesOf]
      cases hCurve : registry.get? gamaka.name with
      | none =>
          have hRead : registry.curveOf gamaka =
              .error ⟨.unknownGamaka gamaka.name,
                gamaka.position⟩ := by
            simp only [Registry.curveOf, hCurve]
          rw [mapM_cons_of_error hRead]
      | some curve =>
          have hRead : registry.curveOf gamaka = .ok curve := by
            simp only [Registry.curveOf, hCurve]
          rw [mapM_cons_of_ok hRead, ih]
          cases rest.mapM registry.curveOf <;> rfl

/- The first gamaka without a curve is reported. -/
theorem curvesOf_eq_error_iff
    {registry : Registry R}
    {gamakas : List Gamaka}
    {error : SongError} :
    curvesOf registry gamakas = .error error ↔
      ∃ gamaka,
        IsFirstWithout
            (fun other : Gamaka => other.name ∈ registry.names)
            gamakas gamaka ∧
          error =
            ⟨.unknownGamaka gamaka.name, gamaka.position⟩ := by
  rw [curvesOf_eq_mapM]
  exact mapM_eq_error_iff_of_fault
    fun gamaka error => Registry.curveOf_eq_error_iff

theorem exists_curvesOf_iff
    {registry : Registry R}
    {gamakas : List Gamaka} :
    (∃ curves, curvesOf registry gamakas = .ok curves) ↔
      ∀ gamaka ∈ gamakas, gamaka.name ∈ registry.names := by
  rw [curvesOf_eq_mapM, exists_mapM_iff]
  simp only [Registry.exists_curveOf_iff]

theorem length_curvesOf
    {registry : Registry R}
    {gamakas : List Gamaka}
    {curves : List (Curve R)}
    (hCurves : curvesOf registry gamakas = .ok curves) :
    curves.length = gamakas.length := by
  rw [curvesOf_eq_mapM, mapM_eq_ok_iff] at hCurves
  exact hCurves.length_eq.symm

end Song

------------------------------------------------------------
-- Resolved Songs
------------------------------------------------------------

namespace Song

/- What a song needs for its segments: every name of a svara is
known, no continuation leads, and every gamaka is
registered. -/
structure IsResolved
    (song : Song)
    (registry : Registry R) : Prop where
  pitches : ∀ svara ∈ song.svaras, svara.HasPitch
  leads : Svara.Leads song.svaras
  gamakas :
    ∀ gamaka ∈ song.gamakas, gamaka.name ∈ registry.names

/-
  The error of a song without segments. It is about the first
  svara or gamaka that lacks what segments need, where the
  song has all that is asked for before.
-/
inductive Lacks
    (song : Song)
    (registry : Registry R) : SongError → Prop
| svara
    {svara : Svara}
    (hSvara :
      IsFirstWithout Svara.HasPitch song.svaras svara) :
    Lacks song registry
      ⟨.unknownSvara svara.name, svara.position⟩
| continuation
    {first : Svara}
    {rest : List Svara}
    (hPitches : ∀ svara ∈ song.svaras, svara.HasPitch)
    (hSvaras : song.svaras = first :: rest)
    (hFirst : first.isContinuation = true) :
    Lacks song registry
      ⟨.leadingContinuation, first.position⟩
| gamaka
    {gamaka : Gamaka}
    (hPitches : ∀ svara ∈ song.svaras, svara.HasPitch)
    (hLeads : Svara.Leads song.svaras)
    (hGamaka :
      IsFirstWithout
        (fun other : Gamaka => other.name ∈ registry.names)
        song.gamakas gamaka) :
    Lacks song registry
      ⟨.unknownGamaka gamaka.name, gamaka.position⟩

variable {song : Song}
variable {registry : Registry R}

/- Offsets that are not found leave no segments. -/
theorem segments_of_offsetsOf_error
    {error : SongError}
    (hOffsets : offsetsOf song.svaras = .error error) :
    song.segments registry = .error error := by
  simp only [segments, hOffsets]

/- Where the offsets are found, the curves decide. -/
theorem segments_of_offsetsOf_ok
    {offsets : List Int}
    (hOffsets : offsetsOf song.svaras = .ok offsets) :
    song.segments registry =
      (curvesOf registry song.gamakas).map
        (join song.svaras offsets) := by
  simp only [segments, hOffsets]
  cases curvesOf registry song.gamakas <;> rfl

/- The segments of a song join its svaras with their offsets
and curves. -/
theorem segments_eq_ok_iff
    {tune : List (Segment R)} :
    song.segments registry = .ok tune ↔
      ∃ offsets curves,
        offsetsOf song.svaras = .ok offsets ∧
          curvesOf registry song.gamakas = .ok curves ∧
          tune = join song.svaras offsets curves := by
  unfold segments
  cases offsetsOf song.svaras with
  | error error => simp
  | ok offsets =>
      cases curvesOf registry song.gamakas with
      | error error => simp
      | ok curves => simp [eq_comm]

/- A song has segments, or it reports what it lacks first. -/
theorem segments_eq_error_iff {error : SongError} :
    song.segments registry = .error error ↔
      song.Lacks registry error := by
  constructor
  · intro hError
    rcases offsetsOf_cases song.svaras with
      ⟨svara, hSvara, hOffsets⟩ |
        ⟨hPitches, ⟨first, rest, hSvaras, hFirst, hOffsets⟩ |
          ⟨offsets, hLeads, hOffsets, _⟩⟩
    · rw [segments_of_offsetsOf_error hOffsets,
        Except.error.injEq] at hError
      exact hError ▸ .svara hSvara
    · rw [segments_of_offsetsOf_error hOffsets,
        Except.error.injEq] at hError
      exact hError ▸ .continuation hPitches hSvaras hFirst
    · rw [segments_of_offsetsOf_ok hOffsets] at hError
      cases hCurves : curvesOf registry song.gamakas with
      | ok curves =>
          rw [hCurves] at hError
          cases hError
      | error other =>
          rw [hCurves] at hError
          cases hError
          rcases curvesOf_eq_error_iff.mp hCurves with
            ⟨gamaka, hGamaka, rfl⟩
          exact .gamaka hPitches hLeads hGamaka
  · intro hLacks
    cases hLacks with
    | svara hSvara =>
        exact segments_of_offsetsOf_error
          (offsetsOf_of_unknown hSvara)
    | continuation hPitches hSvaras hFirst =>
        refine segments_of_offsetsOf_error ?_
        rw [hSvaras] at hPitches ⊢
        exact offsetsOf_of_continuation hPitches hFirst
    | gamaka hPitches hLeads hGamaka =>
        rcases exists_offsetsOf hPitches hLeads with
          ⟨offsets, hOffsets, _⟩
        have hCurves := curvesOf_eq_error_iff.mpr
          ⟨_, hGamaka, rfl⟩
        rw [segments_of_offsetsOf_ok hOffsets, hCurves]
        rfl

/- A song lacks nothing exactly when all its names are
resolved. -/
theorem isResolved_iff_not_lacks :
    song.IsResolved registry ↔
      ¬ ∃ error, song.Lacks registry error := by
  constructor
  · rintro hResolved ⟨error, hLacks⟩
    cases hLacks with
    | svara hSvara =>
        exact hSvara.not_forall hResolved.pitches
    | continuation _ hSvaras hFirst =>
        have hNone := hResolved.leads _
          (by rw [hSvaras]; rfl)
        rw [hFirst] at hNone
        simp at hNone
    | gamaka _ _ hGamaka =>
        exact hGamaka.not_forall hResolved.gamakas
  · intro hNone
    have hPitches : ∀ svara ∈ song.svaras, svara.HasPitch := by
      by_contra hSome
      rcases exists_isFirstWithout hSome with ⟨svara, hSvara⟩
      exact hNone ⟨_, .svara hSvara⟩
    have hLeads : Svara.Leads song.svaras := by
      intro first hFirst
      rw [Option.mem_def, List.head?_eq_some_iff] at hFirst
      rcases hFirst with ⟨rest, hSvaras⟩
      by_contra hHold
      rw [Bool.not_eq_false] at hHold
      exact hNone ⟨_, .continuation hPitches hSvaras hHold⟩
    refine ⟨hPitches, hLeads, ?_⟩
    by_contra hSome
    rcases exists_isFirstWithout hSome with ⟨gamaka, hGamaka⟩
    exact hNone ⟨_, .gamaka hPitches hLeads hGamaka⟩

/- A song has segments exactly when all its names are
resolved. -/
theorem exists_segments_iff :
    (∃ tune, song.segments registry = .ok tune) ↔
      song.IsResolved registry := by
  rw [isResolved_iff_not_lacks]
  simp only [← segments_eq_error_iff]
  cases song.segments registry <;> simp

end Song

end Carnatic
