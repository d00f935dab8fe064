import Carnatic.Proofs.Reading.First
import Carnatic.Segment

/-
  Offsets of svaras.

  A svara's name is the continuation, or it names an offset
  from the shruti. The offset that some svaras end on is the
  one that the last of them names which is no continuation.
  All svaras of a song have offsets when all names are known
  and no continuation leads.

  Main declarations:
    * `Svara.NamesOffset` and `Svara.HasPitch`
    * `Pitch.ofName?_eq_offset_iff`
    * `Svara.EndOn` and `Svara.SoundAt`
    * `Song.offsetsOf_cases`
-/

------------------------------------------------------------
-- Names Of Offsets
------------------------------------------------------------

namespace Carnatic

namespace Svara

/- The names of an offset: a scale name for its index, or the
name with a sign for the octave above or below. -/
inductive NamesOffset : String → Int → Prop
| plain
    {name : String}
    {index : Nat}
    (hName : svaraNames[index]? = some name) :
    NamesOffset name index
| above
    {name : String}
    {index : Nat}
    (hName : svaraNames[index]? = some name) :
    NamesOffset (name ++ "+") (index + 12)
| below
    {name : String}
    {index : Nat}
    (hName : svaraNames[index]? = some name) :
    NamesOffset (name ++ "-") (index - 12)

end Svara

namespace Pitch

/- Every scale name is read with and without its signs. -/
theorem ofName?_svaraNames :
    ∀ entry ∈ svaraNames.zipIdx,
      ofName? entry.1 = some (.offset entry.2) ∧
        ofName? (entry.1 ++ "+") =
          some (.offset (entry.2 + 12)) ∧
        ofName? (entry.1 ++ "-") =
          some (.offset (entry.2 - 12)) := by
  decide +kernel

theorem eq_append_of_getLast?
    {name : String}
    {sign : Char}
    (hLast : name.toList.getLast? = some sign) :
    name =
      String.ofList name.toList.dropLast ++
        String.ofList [sign] := by
  rw [← String.ofList_append,
    List.dropLast_append_getLast? sign hLast,
    String.ofList_toList]

/- A name is its own base, or it is a base with the sign of an
octave. -/
theorem splitOctave_cases (name : String) :
    splitOctave name = (name, 0) ∨
      (∃ base,
        name = base ++ "+" ∧
          splitOctave name = (base, 12)) ∨
      ∃ base,
        name = base ++ "-" ∧
          splitOctave name = (base, -12) := by
  unfold splitOctave
  split
  · rename_i hLast
    exact .inr (.inl
      ⟨_, eq_append_of_getLast? hLast, rfl⟩)
  · rename_i hLast
    exact .inr (.inr
      ⟨_, eq_append_of_getLast? hLast, rfl⟩)
  · exact .inl rfl

/- What is read off a name that is no continuation. -/
theorem ofName?_of_split
    {name base : String}
    {octave offset : Int}
    (hSplit : splitOctave name = (base, octave))
    (hName : ofName? name = some (.offset offset)) :
    ∃ index : Nat,
      svaraNames[index]? = some base ∧
        offset = index + octave := by
  unfold ofName? at hName
  simp only [hSplit] at hName
  split at hName
  · simp at hName
  · split at hName
    · rename_i index hIndex
      have hBase := List.of_findIdx?_eq_some hIndex
      cases hName
      refine ⟨index, ?_, rfl⟩
      split at hBase <;> simp_all
    · simp at hName

/- The offsets that are read off names are those that the
names stand for. -/
theorem ofName?_eq_offset_iff
    {name : String}
    {offset : Int} :
    ofName? name = some (.offset offset) ↔
      Svara.NamesOffset name offset := by
  constructor
  · intro hName
    rcases splitOctave_cases name with
      hSplit | ⟨base, rfl, hSplit⟩ | ⟨base, rfl, hSplit⟩
    · rcases ofName?_of_split hSplit hName with
        ⟨index, hBase, rfl⟩
      rw [Int.add_zero]
      exact .plain hBase
    · rcases ofName?_of_split hSplit hName with
        ⟨index, hBase, rfl⟩
      exact .above hBase
    · rcases ofName?_of_split hSplit hName with
        ⟨index, hBase, rfl⟩
      rw [← Int.sub_eq_add_neg]
      exact .below hBase
  · intro hNames
    have hRead :
        ∀ {base : String} {index : Nat},
          svaraNames[index]? = some base →
            (base, index) ∈ svaraNames.zipIdx := by
      intro base index hBase
      exact List.mk_mem_zipIdx_iff_getElem?.mpr hBase
    cases hNames with
    | plain hBase =>
        exact (ofName?_svaraNames _ (hRead hBase)).1
    | above hBase =>
        exact (ofName?_svaraNames _ (hRead hBase)).2.1
    | below hBase =>
        exact (ofName?_svaraNames _ (hRead hBase)).2.2

theorem ofName?_eq_continuation_iff
    {name : String} :
    ofName? name = some .continuation ↔
      name = Carnatic.continuation := by
  unfold ofName?
  split
  · simp_all
  · rename_i hName
    simp only [hName, iff_false]
    split <;> simp

end Pitch

------------------------------------------------------------
-- Known Names
------------------------------------------------------------

namespace Svara

/- A svara whose name is known: it is the continuation, or it
names an offset. -/
def HasPitch (svara : Svara) : Prop :=
  svara.name = continuation ∨
    ∃ offset, NamesOffset svara.name offset

theorem pitch_eq_ok_iff
    {svara : Svara}
    {pitch : Pitch} :
    svara.pitch = .ok pitch ↔
      Pitch.ofName? svara.name = some pitch := by
  unfold Svara.pitch
  split <;> simp_all

theorem exists_pitch_iff {svara : Svara} :
    (∃ pitch, svara.pitch = .ok pitch) ↔ svara.HasPitch := by
  simp only [pitch_eq_ok_iff]
  constructor
  · rintro ⟨pitch, hName⟩
    cases pitch with
    | offset offset =>
        exact .inr
          ⟨offset, Pitch.ofName?_eq_offset_iff.mp hName⟩
    | continuation =>
        exact .inl (Pitch.ofName?_eq_continuation_iff.mp hName)
  · rintro (hName | ⟨offset, hName⟩)
    · exact ⟨_, Pitch.ofName?_eq_continuation_iff.mpr hName⟩
    · exact ⟨_, Pitch.ofName?_eq_offset_iff.mpr hName⟩

theorem pitch_eq_error_iff
    {svara : Svara}
    {error : SongError} :
    svara.pitch = .error error ↔
      ¬ svara.HasPitch ∧
        error = ⟨.unknownSvara svara.name, svara.position⟩ := by
  rw [← exists_pitch_iff]
  unfold Svara.pitch
  split <;> simp [eq_comm]

/- One name stands for one offset. -/
theorem NamesOffset.unique
    {name : String}
    {first second : Int}
    (hFirst : NamesOffset name first)
    (hSecond : NamesOffset name second) :
    first = second := by
  rw [← Pitch.ofName?_eq_offset_iff] at hFirst hSecond
  rw [hFirst] at hSecond
  cases hSecond
  rfl

theorem isContinuation_of_namesOffset
    {svara : Svara}
    {offset : Int}
    (hNames : NamesOffset svara.name offset) :
    svara.isContinuation = false := by
  rw [← Pitch.ofName?_eq_offset_iff] at hNames
  rw [isContinuation, decide_eq_false_iff_not,
    ← Pitch.ofName?_eq_continuation_iff, hNames]
  simp

------------------------------------------------------------
-- Offsets That Svaras End On
------------------------------------------------------------

/- The offset that svaras end on: the last one of them that is
no continuation names it. -/
def EndOn
    (svaras : List Svara)
    (offset : Int) : Prop :=
  ∃ named,
    (svaras.filter
        fun svara => !svara.isContinuation).getLast? =
      some named ∧
    NamesOffset named.name offset

theorem EndOn.unique
    {svaras : List Svara}
    {first second : Int}
    (hFirst : EndOn svaras first)
    (hSecond : EndOn svaras second) :
    first = second := by
  rcases hFirst with ⟨named, hNamed, hNames⟩
  rcases hSecond with ⟨other, hOther, hOtherNames⟩
  rw [hNamed, Option.some.injEq] at hOther
  subst hOther
  exact hNames.unique hOtherNames

/- No continuation leads. -/
def Leads (svaras : List Svara) : Prop :=
  ∀ first ∈ svaras.head?, first.isContinuation = false

theorem endOn_concat_named
    (front : List Svara)
    {svara : Svara}
    {offset : Int}
    (hNames : NamesOffset svara.name offset) :
    EndOn (front ++ [svara]) offset := by
  have hNamed := isContinuation_of_namesOffset hNames
  exact ⟨svara, by simp [List.filter_append, hNamed], hNames⟩

theorem endOn_concat_continuation
    {front : List Svara}
    {svara : Svara}
    {offset : Int}
    (hFront : EndOn front offset)
    (hName : svara.name = continuation) :
    EndOn (front ++ [svara]) offset := by
  have hHold : svara.isContinuation = true := by
    simp [isContinuation, hName]
  rcases hFront with ⟨named, hNamed, hNames⟩
  refine ⟨named, ?_, hNames⟩
  simpa [List.filter_append, hHold] using hNamed

/- Offsets of svaras behind a front, one for each: the one that
the svaras up to there end on. -/
inductive SoundAt :
    List Svara → List Svara → List Int → Prop
| nil (front : List Svara) : SoundAt front [] []
| cons
    {front rest : List Svara}
    {svara : Svara}
    {offset : Int}
    {offsets : List Int}
    (hEnd : EndOn (front ++ [svara]) offset)
    (hRest : SoundAt (front ++ [svara]) rest offsets) :
    SoundAt front (svara :: rest) (offset :: offsets)

theorem SoundAt.length_eq
    {front svaras : List Svara}
    {offsets : List Int}
    (hSound : SoundAt front svaras offsets) :
    offsets.length = svaras.length := by
  induction hSound with
  | nil => rfl
  | cons _ _ ih => rw [List.length_cons, ih, List.length_cons]

theorem SoundAt.endOn
    {front svaras : List Svara}
    {offsets : List Int}
    (hSound : SoundAt front svaras offsets)
    {index : Nat}
    {offset : Int}
    (hOffset : offsets[index]? = some offset) :
    EndOn (front ++ svaras.take (index + 1)) offset := by
  induction hSound generalizing index with
  | nil => simp at hOffset
  | @cons front rest svara first offsets hEnd _ ih =>
      cases index with
      | zero =>
          rw [List.getElem?_cons_zero,
            Option.some.injEq] at hOffset
          simpa [← hOffset] using hEnd
      | succ index =>
          rw [List.getElem?_cons_succ] at hOffset
          simpa using ih hOffset

/- Svaras sound at the same offsets whatever follows them. -/
theorem SoundAt.exists_append
    {front svaras more : List Svara}
    {offsets longer : List Int}
    (hSound : SoundAt front svaras offsets)
    (hLonger : SoundAt front (svaras ++ more) longer) :
    ∃ later, longer = offsets ++ later := by
  induction hSound generalizing longer with
  | nil => exact ⟨longer, rfl⟩
  | @cons front rest svara offset offsets hEnd _ ih =>
      cases hLonger with
      | @cons _ _ _ other others hOther hRest =>
          rcases ih hRest with ⟨later, rfl⟩
          rw [hEnd.unique hOther]
          exact ⟨later, rfl⟩

/- Offsets are carried forward behind svaras that end on
one. -/
theorem soundAt_carryFrom
    {front rest : List Svara}
    {last : Int}
    {pitches : List Pitch}
    (hPitches :
      List.Forall₂ (fun svara pitch => svara.pitch = .ok pitch)
        rest pitches)
    (hFront : EndOn front last) :
    SoundAt front rest (Pitch.carryFrom last pitches) := by
  induction hPitches generalizing front last with
  | nil => exact .nil front
  | @cons svara pitch rest pitches hPitch _ ih =>
      rw [pitch_eq_ok_iff] at hPitch
      cases pitch with
      | offset semitones =>
          have hEnd := endOn_concat_named front
            (Pitch.ofName?_eq_offset_iff.mp hPitch)
          exact .cons hEnd (ih hEnd)
      | continuation =>
          have hEnd := endOn_concat_continuation hFront
            (Pitch.ofName?_eq_continuation_iff.mp hPitch)
          exact .cons hEnd (ih hEnd)

end Svara

------------------------------------------------------------
-- Offsets Of A Song
------------------------------------------------------------

namespace Song

theorem pitchesOf_eq_mapM (svaras : List Svara) :
    pitchesOf svaras = svaras.mapM Svara.pitch := by
  induction svaras with
  | nil => rfl
  | cons svara rest ih =>
      rw [pitchesOf, ih]
      cases hPitch : svara.pitch with
      | error error => rw [mapM_cons_of_error hPitch]
      | ok pitch =>
          rw [mapM_cons_of_ok hPitch]
          cases rest.mapM Svara.pitch <;> rfl

/- The first svara whose name is not known is reported. -/
theorem pitchesOf_eq_error_iff
    {svaras : List Svara}
    {error : SongError} :
    pitchesOf svaras = .error error ↔
      ∃ svara,
        IsFirstWithout Svara.HasPitch svaras svara ∧
          error =
            ⟨.unknownSvara svara.name, svara.position⟩ := by
  rw [pitchesOf_eq_mapM]
  exact mapM_eq_error_iff_of_fault
    fun svara error => Svara.pitch_eq_error_iff

/- Svaras have a first name that is not known, or they lead
with a continuation, or each has the offset that it sounds
at. -/
theorem offsetsOf_cases (svaras : List Svara) :
    (∃ svara,
        IsFirstWithout Svara.HasPitch svaras svara ∧
          offsetsOf svaras =
            .error
              ⟨.unknownSvara svara.name, svara.position⟩) ∨
      (∀ svara ∈ svaras, svara.HasPitch) ∧
        ((∃ first rest,
            svaras = first :: rest ∧
              first.isContinuation = true ∧
              offsetsOf svaras =
                .error
                  ⟨.leadingContinuation, first.position⟩) ∨
          ∃ offsets,
            Svara.Leads svaras ∧
              offsetsOf svaras = .ok offsets ∧
              Svara.SoundAt [] svaras offsets) := by
  unfold offsetsOf
  cases hPitches : pitchesOf svaras with
  | error error =>
      rcases pitchesOf_eq_error_iff.mp hPitches with
        ⟨svara, hFirst, rfl⟩
      exact .inl ⟨svara, hFirst, rfl⟩
  | ok pitches =>
      rw [pitchesOf_eq_mapM] at hPitches
      have hKnown := exists_mapM_iff.mp ⟨pitches, hPitches⟩
      simp only [Svara.exists_pitch_iff] at hKnown
      refine .inr ⟨hKnown, ?_⟩
      cases mapM_eq_ok_iff.mp hPitches with
      | nil =>
          exact .inr
            ⟨[], by simp [Svara.Leads], rfl, .nil []⟩
      | @cons first pitch rest pitches hFirst hRest =>
          rw [Svara.pitch_eq_ok_iff] at hFirst
          cases pitch with
          | continuation =>
              have hName :=
                Pitch.ofName?_eq_continuation_iff.mp hFirst
              exact .inl ⟨first, rest, rfl,
                by simp [Svara.isContinuation, hName], rfl⟩
          | offset semitones =>
              have hNames :=
                Pitch.ofName?_eq_offset_iff.mp hFirst
              have hEnd :=
                Svara.endOn_concat_named [] hNames
              have hLeads : Svara.Leads (first :: rest) := by
                simpa [Svara.Leads] using
                  Svara.isContinuation_of_namesOffset hNames
              exact .inr ⟨_, hLeads, rfl, .cons hEnd
                (Svara.soundAt_carryFrom hRest hEnd)⟩

theorem offsetsOf_of_unknown
    {svaras : List Svara}
    {svara : Svara}
    (hFirst : IsFirstWithout Svara.HasPitch svaras svara) :
    offsetsOf svaras =
      .error ⟨.unknownSvara svara.name, svara.position⟩ := by
  have hPitches := pitchesOf_eq_error_iff.mpr
    ⟨svara, hFirst, rfl⟩
  simp only [offsetsOf, hPitches]

theorem offsetsOf_of_continuation
    {first : Svara}
    {rest : List Svara}
    (hKnown : ∀ svara ∈ first :: rest, svara.HasPitch)
    (hFirst : first.isContinuation = true) :
    offsetsOf (first :: rest) =
      .error ⟨.leadingContinuation, first.position⟩ := by
  rcases offsetsOf_cases (first :: rest) with
    ⟨_, hUnknown, _⟩ |
      ⟨_, ⟨_, _, hSvaras, _, hRead⟩ | ⟨_, hLeads, _⟩⟩
  · exact absurd hKnown hUnknown.not_forall
  · rw [List.cons.injEq] at hSvaras
    rw [hRead, hSvaras.1]
  · have hNone := hLeads first rfl
    rw [hFirst] at hNone
    simp at hNone

theorem exists_offsetsOf
    {svaras : List Svara}
    (hKnown : ∀ svara ∈ svaras, svara.HasPitch)
    (hLeads : Svara.Leads svaras) :
    ∃ offsets,
      offsetsOf svaras = .ok offsets ∧
        Svara.SoundAt [] svaras offsets := by
  rcases offsetsOf_cases svaras with
    ⟨_, hUnknown, _⟩ |
      ⟨_, ⟨first, _, rfl, hFirst, _⟩ |
        ⟨offsets, _, hRead, hSound⟩⟩
  · exact absurd hKnown hUnknown.not_forall
  · have hNone := hLeads first rfl
    rw [hFirst] at hNone
    simp at hNone
  · exact ⟨offsets, hRead, hSound⟩

/- Offsets that are found are those that the svaras sound
at. -/
theorem soundAt_of_offsetsOf
    {svaras : List Svara}
    {offsets : List Int}
    (hOffsets : offsetsOf svaras = .ok offsets) :
    Svara.SoundAt [] svaras offsets := by
  rcases offsetsOf_cases svaras with
    ⟨_, _, hRead⟩ |
      ⟨_, ⟨_, _, _, _, hRead⟩ | ⟨found, _, hRead, hSound⟩⟩
  · rw [hRead] at hOffsets
    simp at hOffsets
  · rw [hRead] at hOffsets
    simp at hOffsets
  · rw [hRead, Except.ok.injEq] at hOffsets
    rwa [← hOffsets]

end Song

end Carnatic
