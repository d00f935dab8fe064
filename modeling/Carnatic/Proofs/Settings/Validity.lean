import Carnatic.Settings

/-
  Valid settings.

  Settings pass their check exactly when every field lies in
  its range and every further curve has a name that a song can
  refer to.

  Main declarations:
    * `Settings.IsValid`
    * `Settings.violation?_eq_none_iff`
    * `Settings.validated_eq_ok_iff`
-/

------------------------------------------------------------
-- Ranges Of Fields
------------------------------------------------------------

namespace Carnatic

namespace Settings

variable {R : Type}

/- All fields lie in their ranges. -/
structure IsValid (settings : Settings R) : Prop where
  shruti_le : settings.shruti ≤ 127
  program_le : settings.program ≤ 127
  channel_le : settings.channel ≤ 15
  velocity_ge : 1 ≤ settings.velocity
  velocity_le : settings.velocity ≤ 127
  ticksPerUnit_ne : settings.ticksPerUnit ≠ 0
  easeExponent_ge : 1 ≤ settings.easeExponent
  ticksPerBeat_ne : settings.ticksPerBeat ≠ 0
  ticksPerBeat_le : settings.ticksPerBeat ≤ 0x7FFF
  isGamakaName :
    ∀ name ∈ settings.gamakas.names,
      Settings.isGamakaName name = true

/- A check in front of others finds nothing exactly when its
own condition fails and the others find nothing. -/
private theorem ite_some_eq_none_iff
    {condition : Prop} [Decidable condition]
    {violation : Violation}
    {others : Option Violation} :
    (if condition then some violation else others) = none ↔
      ¬condition ∧ others = none := by
  by_cases hCondition : condition <;> simp [hCondition]

theorem violation?_eq_none_iff
    {settings : Settings R} :
    settings.violation? = none ↔ settings.IsValid := by
  simp only [violation?, ite_some_eq_none_iff,
    Option.map_eq_none_iff, List.find?_eq_none, not_or,
    UInt8.not_lt, UInt16.not_lt, Int.not_lt,
    Bool.not_eq_true, Bool.not_eq_false']
  constructor
  · intro hNone
    rcases hNone with
      ⟨hShruti, hProgram, hChannel, hVelocity, hUnit, hEase,
        hBeat, hNames⟩
    exact
      { shruti_le := hShruti
        program_le := hProgram
        channel_le := hChannel
        velocity_ge := hVelocity.1
        velocity_le := hVelocity.2
        ticksPerUnit_ne := hUnit
        easeExponent_ge := hEase
        ticksPerBeat_ne := hBeat.1
        ticksPerBeat_le := hBeat.2
        isGamakaName := hNames }
  · intro hValid
    exact
      ⟨hValid.shruti_le, hValid.program_le,
        hValid.channel_le,
        ⟨hValid.velocity_ge, hValid.velocity_le⟩,
        hValid.ticksPerUnit_ne, hValid.easeExponent_ge,
        ⟨hValid.ticksPerBeat_ne, hValid.ticksPerBeat_le⟩,
        hValid.isGamakaName⟩

/- Settings that pass the check are those that are valid. -/
theorem validated_eq_ok_iff
    {settings checked : Settings R} :
    settings.validated = .ok checked ↔
      checked = settings ∧ settings.IsValid := by
  rw [← violation?_eq_none_iff]
  unfold validated
  cases settings.violation? <;> simp [eq_comm]

/- A note of valid settings is heard: velocity zero would
stop it. -/
theorem IsValid.velocity_ne_zero
    {settings : Settings R}
    (hValid : settings.IsValid) :
    settings.velocity ≠ 0 := by
  intro hZero
  have hLow := hValid.velocity_ge
  rw [hZero] at hLow
  exact absurd hLow (by decide)

end Settings

end Carnatic
