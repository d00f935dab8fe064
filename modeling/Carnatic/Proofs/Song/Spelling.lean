import Carnatic.Proofs.Pitch.Offsets

/-
  Continuations spelled out.

  A continuation stands for the name in front of it. A song
  that has this name in its place has the same segments, or
  the same error, also where the name in front is not known:
  then it is the first one that is not.

  Main declarations:
    * `Svara.spellFrom` and `Svara.getElem?_spellFrom`
    * `Song.spelledOut` and `Song.SpellsOut`
    * `Song.offsetsOf_spellFrom`
    * `Song.segments_spelledOut`
-/

------------------------------------------------------------
-- Spelled-Out Svaras
------------------------------------------------------------

namespace Carnatic

namespace Svara

/- The last of some svaras that is no continuation. -/
def lastNamed? (svaras : List Svara) : Option Svara :=
  (svaras.filter fun svara => !svara.isContinuation).getLast?

/- The name that svaras behind a name end on. -/
def nameBehind
    (last : String)
    (svaras : List Svara) : String :=
  ((lastNamed? svaras).map Svara.name).getD last

/- Svaras behind a name, where the continuations get the names
that they repeat. -/
def spellFrom : String → List Svara → List Svara
| _, [] => []
| last, svara :: rest =>
    if svara.isContinuation then
      { svara with name := last } :: spellFrom last rest
    else
      svara :: spellFrom svara.name rest

theorem spellFrom_cons_of_hold
    {svara : Svara}
    (hHold : svara.isContinuation = true)
    (last : String)
    (rest : List Svara) :
    spellFrom last (svara :: rest) =
      { svara with name := last } :: spellFrom last rest := by
  rw [spellFrom, if_pos hHold]

theorem spellFrom_cons_of_named
    {svara : Svara}
    (hHold : svara.isContinuation = false)
    (last : String)
    (rest : List Svara) :
    spellFrom last (svara :: rest) =
      svara :: spellFrom svara.name rest := by
  simp [spellFrom, hHold]

theorem lastNamed?_cons
    (first : Svara)
    (rest : List Svara) :
    lastNamed? (first :: rest) =
      (lastNamed? rest).or
        (if first.isContinuation then none
          else some first) := by
  unfold lastNamed?
  by_cases hHold : first.isContinuation = true
  · simp [hHold]
  · simp [hHold, List.getLast?_cons, Option.or_some]

theorem nameBehind_cons
    (last : String)
    (first : Svara)
    (rest : List Svara) :
    nameBehind last (first :: rest) =
      nameBehind
        (if first.isContinuation then last else first.name)
        rest := by
  unfold nameBehind
  rw [lastNamed?_cons]
  by_cases hHold : first.isContinuation = true
  · simp [hHold]
  · cases lastNamed? rest <;> simp [hHold]

/- Svaras in two parts are spelled out part by part. -/
theorem spellFrom_append
    (last : String)
    (front behind : List Svara) :
    spellFrom last (front ++ behind) =
      spellFrom last front ++
        spellFrom (nameBehind last front) behind := by
  induction front generalizing last with
  | nil => rfl
  | cons first rest ih =>
      rw [nameBehind_cons]
      by_cases hHold : first.isContinuation = true
      · simp [spellFrom, hHold, ih]
      · simp [spellFrom, hHold, ih]

@[simp]
theorem length_spellFrom
    (last : String)
    (svaras : List Svara) :
    (spellFrom last svaras).length = svaras.length := by
  induction svaras generalizing last with
  | nil => rfl
  | cons svara rest ih =>
      unfold spellFrom
      split <;> simp [ih]

/- A spelled-out svara has the name that the svaras up to it
end on. -/
theorem getElem?_spellFrom
    (last : String)
    {svaras : List Svara}
    {index : Nat}
    {svara : Svara}
    (hSvara : svaras[index]? = some svara) :
    (spellFrom last svaras)[index]? =
      some
        { svara with
          name :=
            nameBehind last (svaras.take (index + 1)) } := by
  induction svaras generalizing last index with
  | nil => simp at hSvara
  | cons first rest ih =>
      rw [List.take_succ_cons, nameBehind_cons]
      cases index with
      | zero =>
          rw [List.getElem?_cons_zero,
            Option.some.injEq] at hSvara
          subst hSvara
          by_cases hHold : first.isContinuation = true
          · simp [spellFrom, hHold, nameBehind, lastNamed?]
          · simp [spellFrom, hHold, nameBehind, lastNamed?]
      | succ index =>
          rw [List.getElem?_cons_succ] at hSvara
          by_cases hHold : first.isContinuation = true
          · simp [spellFrom, hHold, ih last hSvara]
          · simp [spellFrom, hHold, ih first.name hSvara]

/- Where no continuation leads, there is a name to repeat up to
every svara. -/
theorem exists_lastNamed_of_leads
    {svaras : List Svara}
    (hLeads : Leads svaras)
    {index : Nat}
    {svara : Svara}
    (hSvara : svaras[index]? = some svara) :
    ∃ named,
      lastNamed? (svaras.take (index + 1)) = some named := by
  cases svaras with
  | nil => simp at hSvara
  | cons first rest =>
      have hFirst : first.isContinuation = false :=
        hLeads first rfl
      rw [List.take_succ_cons, lastNamed?_cons, hFirst]
      cases hRest : lastNamed? (rest.take index) with
      | none => exact ⟨first, rfl⟩
      | some named => exact ⟨named, rfl⟩

/- The pitch of a svara that is no continuation is an
offset. -/
theorem exists_namesOffset_of_pitch
    {svara : Svara}
    {pitch : Pitch}
    (hHold : svara.isContinuation = false)
    (hPitch : svara.pitch = .ok pitch) :
    ∃ offset,
      pitch = .offset offset ∧
        NamesOffset svara.name offset := by
  rw [pitch_eq_ok_iff] at hPitch
  cases pitch with
  | offset offset =>
      exact ⟨offset, rfl,
        Pitch.ofName?_eq_offset_iff.mp hPitch⟩
  | continuation =>
      rw [Pitch.ofName?_eq_continuation_iff] at hPitch
      simp [isContinuation, hPitch] at hHold

end Svara

------------------------------------------------------------
-- Spelled-Out Songs
------------------------------------------------------------

/- Lines behind a name, where the continuations get the names
that they repeat. -/
def Line.spellFrom : String → List Line → List Line
| _, [] => []
| last, line :: rest =>
    { line with
      svaras := Svara.spellFrom last line.svaras } ::
      spellFrom (Svara.nameBehind last line.svaras) rest

namespace Song

/- A song where the continuations get the names that they
repeat, also across lines. Continuations that lead stay. -/
def spelledOut (song : Song) : Song where
  lines := Line.spellFrom continuation song.lines

/-
  A song that differs from another one in names of svaras
  only. Every svara has the name of the last one up to it that
  is no continuation in the other song.
-/
structure SpellsOut (song spelled : Song) : Prop where
  lines :
    List.Forall₂
      (fun line other : Line =>
        other.gamakas = line.gamakas ∧
          other.position = line.position ∧
          other.svaras.length = line.svaras.length)
      song.lines spelled.lines
  names :
    ∀ (index : Nat) (svara : Svara),
      song.svaras[index]? = some svara →
        ∃ named,
          Svara.lastNamed? (song.svaras.take (index + 1)) =
              some named ∧
            spelled.svaras[index]? =
              some { svara with name := named.name }

theorem svaras_spelledOut (song : Song) :
    song.spelledOut.svaras =
      Svara.spellFrom continuation song.svaras := by
  have hLines :
      ∀ (last : String) (lines : List Line),
        (Line.spellFrom last lines).flatMap Line.svaras =
          Svara.spellFrom last
            (lines.flatMap Line.svaras) := by
    intro last lines
    induction lines generalizing last with
    | nil => rfl
    | cons line rest ih =>
        rw [List.flatMap_cons, Svara.spellFrom_append, ← ih]
        rfl
  exact hLines continuation song.lines

theorem gamakas_spelledOut (song : Song) :
    song.spelledOut.gamakas = song.gamakas := by
  have hLines :
      ∀ (last : String) (lines : List Line),
        (Line.spellFrom last lines).flatMap Line.gamakas =
          lines.flatMap Line.gamakas := by
    intro last lines
    induction lines generalizing last with
    | nil => rfl
    | cons line rest ih =>
        rw [List.flatMap_cons, ← ih]
        rfl
  exact hLines continuation song.lines

theorem spellsOut_spelledOut
    {song : Song}
    (hLeads : Svara.Leads song.svaras) :
    song.SpellsOut song.spelledOut where
  lines := by
    have hLines :
        ∀ (last : String) (lines : List Line),
          List.Forall₂
            (fun line other : Line =>
              other.gamakas = line.gamakas ∧
                other.position = line.position ∧
                other.svaras.length = line.svaras.length)
            lines (Line.spellFrom last lines) := by
      intro last lines
      induction lines generalizing last with
      | nil => exact .nil
      | cons line rest ih =>
          exact .cons
            ⟨rfl, rfl, Svara.length_spellFrom last line.svaras⟩
            (ih _)
    exact hLines continuation song.lines
  names := by
    intro index svara hSvara
    rcases Svara.exists_lastNamed_of_leads hLeads hSvara with
      ⟨named, hNamed⟩
    refine ⟨named, hNamed, ?_⟩
    rw [svaras_spelledOut,
      Svara.getElem?_spellFrom continuation hSvara,
      Svara.nameBehind, hNamed]
    rfl

------------------------------------------------------------
-- The Same Offsets
------------------------------------------------------------

theorem pitchesOf_cons_of_error
    {svara : Svara}
    {error : SongError}
    (hPitch : svara.pitch = .error error)
    (rest : List Svara) :
    pitchesOf (svara :: rest) = .error error := by
  simp only [pitchesOf, hPitch]

/- Offsets are carried over a svara with a pitch to the svaras
behind it. -/
theorem carryFrom_pitchesOf_cons
    {svara : Svara}
    {pitch : Pitch}
    {last next : Int}
    (hPitch : svara.pitch = .ok pitch)
    (hNext :
      ∀ pitches,
        Pitch.carryFrom last (pitch :: pitches) =
          next :: Pitch.carryFrom next pitches)
    (rest : List Svara) :
    (pitchesOf (svara :: rest)).map (Pitch.carryFrom last) =
      ((pitchesOf rest).map (Pitch.carryFrom next)).map
        (next :: ·) := by
  simp only [pitchesOf, hPitch]
  cases pitchesOf rest with
  | error error => rfl
  | ok pitches => exact congrArg Except.ok (hNext pitches)

/- Behind a name that stands for an offset, svaras have the
same offsets when they are spelled out, or the same error. -/
theorem carryFrom_pitchesOf_spellFrom
    {last : String}
    {offset : Int}
    (hLast : Svara.NamesOffset last offset)
    (svaras : List Svara) :
    (pitchesOf (Svara.spellFrom last svaras)).map
        (Pitch.carryFrom offset) =
      (pitchesOf svaras).map (Pitch.carryFrom offset) := by
  induction svaras generalizing last offset with
  | nil => rfl
  | cons svara rest ih =>
      by_cases hHold : svara.isContinuation = true
      · have hName : svara.name = continuation := by
          simpa [Svara.isContinuation] using hHold
        have hPitch : svara.pitch = .ok .continuation :=
          Svara.pitch_eq_ok_iff.mpr
            (Pitch.ofName?_eq_continuation_iff.mpr hName)
        have hSpelled :
            Svara.pitch { svara with name := last } =
              .ok (.offset offset) :=
          Svara.pitch_eq_ok_iff.mpr
            (Pitch.ofName?_eq_offset_iff.mpr hLast)
        rw [Svara.spellFrom_cons_of_hold hHold,
          carryFrom_pitchesOf_cons hSpelled (fun _ => rfl),
          carryFrom_pitchesOf_cons hPitch (fun _ => rfl),
          ih hLast]
      · rw [Bool.not_eq_true] at hHold
        rw [Svara.spellFrom_cons_of_named hHold]
        cases hPitch : svara.pitch with
        | error error =>
            rw [pitchesOf_cons_of_error hPitch,
              pitchesOf_cons_of_error hPitch]
        | ok pitch =>
            rcases Svara.exists_namesOffset_of_pitch hHold
                hPitch with
              ⟨semitones, rfl, hNames⟩
            rw [carryFrom_pitchesOf_cons hPitch
                (fun _ => rfl),
              carryFrom_pitchesOf_cons hPitch (fun _ => rfl),
              ih hNames]

theorem offsetsOf_cons_of_error
    {first : Svara}
    {error : SongError}
    (hPitch : first.pitch = .error error)
    (rest : List Svara) :
    offsetsOf (first :: rest) = .error error := by
  simp only [offsetsOf, pitchesOf_cons_of_error hPitch]

theorem offsetsOf_cons_of_offset
    {first : Svara}
    {offset : Int}
    (hPitch : first.pitch = .ok (.offset offset))
    (rest : List Svara) :
    offsetsOf (first :: rest) =
      ((pitchesOf rest).map (Pitch.carryFrom offset)).map
        (offset :: ·) := by
  simp only [offsetsOf, pitchesOf, hPitch]
  cases pitchesOf rest <;> rfl

/- Svaras that no continuation leads have the same offsets
when they are spelled out, or the same error. -/
theorem offsetsOf_spellFrom
    {svaras : List Svara}
    (hLeads : Svara.Leads svaras)
    (last : String) :
    offsetsOf (Svara.spellFrom last svaras) =
      offsetsOf svaras := by
  cases svaras with
  | nil => rfl
  | cons first rest =>
      have hFirst : first.isContinuation = false :=
        hLeads first rfl
      rw [Svara.spellFrom_cons_of_named hFirst]
      cases hPitch : first.pitch with
      | error error =>
          rw [offsetsOf_cons_of_error hPitch,
            offsetsOf_cons_of_error hPitch]
      | ok pitch =>
          rcases Svara.exists_namesOffset_of_pitch hFirst
              hPitch with
            ⟨semitones, rfl, hNames⟩
          rw [offsetsOf_cons_of_offset hPitch,
            offsetsOf_cons_of_offset hPitch,
            carryFrom_pitchesOf_spellFrom hNames]

------------------------------------------------------------
-- The Same Segments
------------------------------------------------------------

variable {R : Type} [Scalar R]

/- Names have no part in joining. -/
theorem join_spellFrom
    (last : String)
    (svaras : List Svara)
    (offsets : List Int)
    (curves : List (Curve R)) :
    join (Svara.spellFrom last svaras) offsets curves =
      join svaras offsets curves := by
  induction svaras generalizing last offsets curves with
  | nil => rfl
  | cons svara rest ih =>
      unfold Svara.spellFrom
      cases offsets with
      | nil => split <;> rfl
      | cons start offsets =>
          cases curves with
          | nil => split <;> rfl
          | cons curve curves =>
              split <;> simp only [join, ih]

/- A song that no continuation leads has the same segments
when it is spelled out, or the same error. -/
theorem segments_spelledOut
    {song : Song}
    (hLeads : Svara.Leads song.svaras)
    (registry : Registry R) :
    song.spelledOut.segments registry =
      song.segments registry := by
  unfold segments
  rw [svaras_spelledOut, gamakas_spelledOut,
    offsetsOf_spellFrom hLeads]
  cases offsetsOf song.svaras with
  | error error => rfl
  | ok offsets =>
      cases curvesOf registry song.gamakas with
      | error error => rfl
      | ok curves => simp only [join_spellFrom]

end Song

end Carnatic
