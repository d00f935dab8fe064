import Carnatic.Proofs.Pitch.Offsets

/-
  The compass of svaras.

  The names of svaras cover three octaves: each offset from
  twelve semitones below the shruti to twenty-three above it
  has one name, and nothing but the continuation is a name
  besides. Carrying offsets forward adds none.

  Main declarations:
    * `InCompass`
    * `Svara.namesOffset_iff`
    * `Pitch.IsCompass` and `Pitch.isCompass_ofName?`
    * `Svara.EndOn.inCompass`
-/

------------------------------------------------------------
-- Names By Their Offsets
------------------------------------------------------------

namespace Carnatic

/- The offsets that svaras can have. -/
def InCompass (offset : Int) : Prop :=
  -12 ≤ offset ∧ offset ≤ 23

namespace Svara

/- The sign of the octave that an offset lies in. -/
def octaveSign (offset : Int) : String :=
  if offset < 0 then
    "-"
  else if 12 ≤ offset then
    "+"
  else
    ""

/- The name of an offset: the scale name within its octave,
and the sign of the octave. -/
def nameOf (offset : Int) : String :=
  (svaraNames[(offset % 12).toNat]?).getD "" ++
    octaveSign offset

theorem index_lt_of_svaraNames
    {name : String}
    {index : Nat}
    (hName : svaraNames[index]? = some name) :
    index < 12 :=
  (List.getElem?_eq_some_iff.mp hName).1

theorem exists_svaraName
    {index : Nat}
    (hIndex : index < 12) :
    ∃ name, svaraNames[index]? = some name :=
  ⟨_, List.getElem?_eq_getElem hIndex⟩

theorem nameOf_eq
    {name : String}
    {index : Nat}
    {offset : Int}
    (hName : svaraNames[index]? = some name)
    (hIndex : offset % 12 = index) :
    nameOf offset = name ++ octaveSign offset := by
  rw [nameOf, hIndex, Int.toNat_natCast, hName,
    Option.getD_some]

/- An offset of the compass has one name, and no other offset
has any. -/
theorem namesOffset_iff
    {name : String}
    {offset : Int} :
    NamesOffset name offset ↔
      InCompass offset ∧ name = nameOf offset := by
  constructor
  · intro hNames
    cases hNames with
    | @plain _ index hName =>
        have hIndex := index_lt_of_svaraNames hName
        have hSign : octaveSign index = "" := by
          rw [octaveSign, if_neg (by omega),
            if_neg (by omega)]
        refine ⟨⟨by omega, by omega⟩, ?_⟩
        rw [nameOf_eq hName (by omega), hSign,
          String.append_empty]
    | @above _ index hName =>
        have hIndex := index_lt_of_svaraNames hName
        have hSign : octaveSign (index + 12) = "+" := by
          rw [octaveSign, if_neg (by omega),
            if_pos (by omega)]
        refine ⟨⟨by omega, by omega⟩, ?_⟩
        rw [nameOf_eq hName (by omega), hSign]
    | @below _ index hName =>
        have hIndex := index_lt_of_svaraNames hName
        have hSign : octaveSign (index - 12) = "-" := by
          rw [octaveSign, if_pos (by omega)]
        refine ⟨⟨by omega, by omega⟩, ?_⟩
        rw [nameOf_eq hName (by omega), hSign]
  · rintro ⟨⟨hLow, hHigh⟩, rfl⟩
    -- The octave decides which constructor names the offset.
    have hMod : 0 ≤ offset % 12 := by
      omega
    rcases Int.eq_ofNat_of_zero_le hMod with ⟨index, hIndex⟩
    have hLess : index < 12 := by
      omega
    rcases exists_svaraName hLess with ⟨name, hName⟩
    rw [nameOf_eq hName hIndex, octaveSign]
    by_cases hBelow : offset < 0
    · have hOffset : offset = index - 12 := by
        omega
      rw [if_pos hBelow, hOffset]
      exact .below hName
    · rw [if_neg hBelow]
      by_cases hAbove : 12 ≤ offset
      · have hOffset : offset = index + 12 := by
          omega
        rw [if_pos hAbove, hOffset]
        exact .above hName
      · have hOffset : offset = index := by
          omega
        rw [if_neg hAbove, String.append_empty, hOffset]
        exact .plain hName

/- What names an offset is a scale name with at most one
sign. -/
theorem exists_namesOffset_iff {name : String} :
    (∃ offset, NamesOffset name offset) ↔
      ∃ base ∈ svaraNames,
        name = base ∨ name = base ++ "+" ∨
          name = base ++ "-" := by
  constructor
  · rintro ⟨offset, hNames⟩
    cases hNames with
    | plain hName =>
        exact ⟨_, List.mem_of_getElem? hName, .inl rfl⟩
    | above hName =>
        exact ⟨_, List.mem_of_getElem? hName,
          .inr (.inl rfl)⟩
    | below hName =>
        exact ⟨_, List.mem_of_getElem? hName,
          .inr (.inr rfl)⟩
  · rintro ⟨base, hBase, hName⟩
    rcases List.getElem?_of_mem hBase with ⟨index, hIndex⟩
    rcases hName with rfl | rfl | rfl
    · exact ⟨_, .plain hIndex⟩
    · exact ⟨_, .above hIndex⟩
    · exact ⟨_, .below hIndex⟩

end Svara

------------------------------------------------------------
-- Compass Of Names
------------------------------------------------------------

namespace Pitch

/-
  A way to read names whose offsets are those of the compass,
  each under one name. Scale names with at most one sign have
  offsets, and the continuation is the only other name.
-/
structure IsCompass (read : String → Option Pitch) : Prop where
  exists_offset_iff :
    ∀ name,
      (∃ offset, read name = some (.offset offset)) ↔
        ∃ base ∈ svaraNames,
          name = base ∨ name = base ++ "+" ∨
            name = base ++ "-"
  bounds :
    ∀ name offset,
      read name = some (.offset offset) →
        -12 ≤ offset ∧ offset ≤ 23
  distinct :
    ∀ name other offset,
      read name = some (.offset offset) →
        read other = some (.offset offset) →
          name = other
  reached :
    ∀ offset : Int,
      -12 ≤ offset →
        offset ≤ 23 →
          ∃ name, read name = some (.offset offset)
  continuation_iff :
    ∀ name, read name = some .continuation ↔ name = ","

theorem isCompass_ofName? : IsCompass ofName? := by
  constructor
  case exists_offset_iff =>
    intro name
    simp only [ofName?_eq_offset_iff]
    exact Svara.exists_namesOffset_iff
  case bounds =>
    intro name offset hName
    rw [ofName?_eq_offset_iff, Svara.namesOffset_iff] at hName
    exact hName.1
  case distinct =>
    intro name other offset hName hOther
    rw [ofName?_eq_offset_iff,
      Svara.namesOffset_iff] at hName hOther
    rw [hName.2, hOther.2]
  case reached =>
    intro offset hLow hHigh
    refine ⟨Svara.nameOf offset, ?_⟩
    rw [ofName?_eq_offset_iff, Svara.namesOffset_iff]
    exact ⟨⟨hLow, hHigh⟩, rfl⟩
  case continuation_iff =>
    intro name
    exact ofName?_eq_continuation_iff

end Pitch

------------------------------------------------------------
-- Offsets Carried Forward
------------------------------------------------------------

theorem Svara.EndOn.inCompass
    {svaras : List Svara}
    {offset : Int}
    (hEnd : EndOn svaras offset) :
    InCompass offset := by
  rcases hEnd with ⟨named, _, hNames⟩
  exact (namesOffset_iff.mp hNames).1

end Carnatic
