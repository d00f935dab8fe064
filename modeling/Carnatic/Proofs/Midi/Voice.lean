import Carnatic.Midi.Message
import Mathlib.Data.Finset.Card
import Mathlib.Data.Finset.Option

/-
  Streams with a single voice.

  A note sounds from the event that starts it to the event
  that stops it. A stream has a single voice when notes start
  in silence, or take over from the note that sounds: then the
  old note stops in the very next event, without delay.

  Main declarations:
    * `Midi.held`
    * `Midi.SingleVoice`
    * `Midi.SingleVoice.held_eq`
    * `Midi.IsMonophonic`
    * `Midi.SingleVoice.isMonophonic`
    * `Midi.SingleVoice.countP_starts`
-/

------------------------------------------------------------
-- Sounding Notes
------------------------------------------------------------

namespace Carnatic

namespace Midi

/- The notes that sound after a message: a start adds its note
at any velocity, and a stop takes its note away. -/
def Message.changeHeld
    (held : Finset UInt8) :
    Message → Finset UInt8
| .noteOn note _ => insert note held
| .noteOff note => held.erase note
| .programChange _ => held
| .controlChange _ _ => held
| .pitchBend _ => held

/- The notes that sound after some events. -/
def held (events : List Event) : Finset UInt8 :=
  events.foldl
    (fun notes event => event.message.changeHeld notes) ∅

/- A message that starts a note. -/
def Message.starts
    (note : UInt8) : Message → Bool
| .noteOn other _ => other = note
| _ => false

/- A message that stops a note. -/
def Message.stops
    (note : UInt8) : Message → Bool
| .noteOff other => other = note
| _ => false

@[simp]
theorem Message.starts_noteOn
    (note other velocity : UInt8) :
    (Message.noteOn other velocity).starts note =
      decide (other = note) :=
  rfl

@[simp]
theorem Message.starts_noteOff
    (note other : UInt8) :
    (Message.noteOff other).starts note = false :=
  rfl

@[simp]
theorem Message.stops_noteOn
    (note other velocity : UInt8) :
    (Message.noteOn other velocity).stops note = false :=
  rfl

@[simp]
theorem Message.stops_noteOff
    (note other : UInt8) :
    (Message.noteOff other).stops note =
      decide (other = note) :=
  rfl

/- A message that neither starts nor stops a note. -/
def Message.isNeutral : Message → Bool
| .noteOn _ _ => false
| .noteOff _ => false
| _ => true

@[simp]
theorem Message.isNeutral_noteOn
    (note velocity : UInt8) :
    (Message.noteOn note velocity).isNeutral = false :=
  rfl

@[simp]
theorem Message.isNeutral_noteOff (note : UInt8) :
    (Message.noteOff note).isNeutral = false :=
  rfl

@[simp]
theorem held_nil : held [] = ∅ :=
  rfl

@[simp]
theorem held_append_singleton
    (events : List Event)
    (event : Event) :
    held (events ++ [event]) =
      event.message.changeHeld (held events) := by
  simp [held]

theorem Message.changeHeld_of_isNeutral
    {message : Message}
    (hNeutral : message.isNeutral = true)
    (notes : Finset UInt8) :
    message.changeHeld notes = notes := by
  cases message <;> simp_all [isNeutral, changeHeld]

------------------------------------------------------------
-- Single Voices
------------------------------------------------------------

/-
  Streams with a single voice, and the note that sounds at
  their end.
-/
inductive SingleVoice : List Event → Option UInt8 → Prop
| silence : SingleVoice [] none
| neutral
    {events : List Event}
    {sounding : Option UInt8}
    {event : Event}
    (hBefore : SingleVoice events sounding)
    (hNeutral : event.message.isNeutral = true) :
    SingleVoice (events ++ [event]) sounding
| start
    {events : List Event}
    {event : Event}
    {note velocity : UInt8}
    (hBefore : SingleVoice events none)
    (hStart : event.message = .noteOn note velocity) :
    SingleVoice (events ++ [event]) (some note)
| takeOver
    {events : List Event}
    {first second : Event}
    {note old velocity : UInt8}
    (hBefore : SingleVoice events (some old))
    (hOther : note ≠ old)
    (hStart : first.message = .noteOn note velocity)
    (hStop : second.message = .noteOff old)
    (hDelta : second.delta = 0) :
    SingleVoice (events ++ [first] ++ [second]) (some note)
| stop
    {events : List Event}
    {event : Event}
    {note : UInt8}
    (hBefore : SingleVoice events (some note))
    (hStop : event.message = .noteOff note) :
    SingleVoice (events ++ [event]) none

/- What sounds after a stream with a single voice is the note
at its end. -/
theorem SingleVoice.held_eq
    {events : List Event}
    {sounding : Option UInt8}
    (hVoice : SingleVoice events sounding) :
    held events = sounding.toFinset := by
  induction hVoice with
  | silence => rfl
  | neutral _ hNeutral ih =>
      rw [held_append_singleton,
        Message.changeHeld_of_isNeutral hNeutral, ih]
  | start _ hStart ih =>
      rw [held_append_singleton, hStart, ih]
      rfl
  | @takeOver _ _ _ note old _ _ hOther hStart hStop _ ih =>
      rw [held_append_singleton, held_append_singleton,
        hStop, hStart, ih]
      have hOld : old ∉ ({note} : Finset UInt8) := by
        simpa using hOther.symm
      simp only [Message.changeHeld, Option.toFinset_some]
      rw [Finset.pair_comm, Finset.erase_insert hOld]
  | stop _ hStop ih =>
      rw [held_append_singleton, hStop, ih]
      simp [Message.changeHeld]

/- A single voice never ends on two notes. -/
theorem SingleVoice.card_held_le_one
    {events : List Event}
    {sounding : Option UInt8}
    (hVoice : SingleVoice events sounding) :
    (held events).card ≤ 1 := by
  rw [hVoice.held_eq]
  cases sounding <;> simp

/- In a stream with a single voice, every note stops as often
as it starts, but for the one that sounds at its end. -/
theorem SingleVoice.countP_starts
    {events : List Event}
    {sounding : Option UInt8}
    (hVoice : SingleVoice events sounding)
    (note : UInt8) :
    events.countP (fun event => event.message.starts note) =
      events.countP (fun event => event.message.stops note) +
        if sounding = some note then 1 else 0 := by
  induction hVoice with
  | silence => rfl
  | @neutral _ _ event _ hNeutral ih =>
      have hNone :
          event.message.starts note = false ∧
            event.message.stops note = false := by
        cases hMessage : event.message <;>
          simp_all [Message.isNeutral, Message.starts,
            Message.stops]
      simp [hNone, ih]
  | start _ hStart ih =>
      simp [List.countP_singleton, hStart, ih]
  | takeOver _ _ hStart hStop _ ih =>
      simp only [List.countP_append, List.countP_singleton,
        hStart, hStop, ih, Message.starts_noteOn,
        Message.starts_noteOff, Message.stops_noteOn,
        Message.stops_noteOff, Option.some.injEq,
        decide_eq_true_eq, Bool.false_eq_true, if_false]
      omega
  | stop _ hStop ih =>
      simp [List.countP_singleton, hStop, ih]

------------------------------------------------------------
-- One Note At A Time
------------------------------------------------------------

/-
  What a cut through a stream shows when its notes sound one
  at a time. The next event starts no note that sounds and
  stops none that is silent. Where two notes sound, the last
  event started one, and the next stops the other at once.
-/
structure CutsOneNote (before after : List Event) : Prop where
  start_silent :
    ∀ event ∈ after.head?, ∀ note velocity,
      event.message = .noteOn note velocity →
        note ∉ held before
  stop_sounding :
    ∀ event ∈ after.head?, ∀ note,
      event.message = .noteOff note →
        note ∈ held before
  overlap :
    1 < (held before).card →
      ∃ front start stop rest note old velocity,
        before = front ++ [start] ∧
          after = stop :: rest ∧
          start.message = .noteOn note velocity ∧
          stop.message = .noteOff old ∧
          stop.delta = 0 ∧
          held front = {old} ∧
          held before = {note, old}

/- A stream whose notes sound one at a time. -/
def IsMonophonic (events : List Event) : Prop :=
  ∀ before after,
    events = before ++ after → CutsOneNote before after

namespace CutsOneNote

variable {before : List Event}

/- Where one note sounds at most, only the next event
matters. -/
theorem of_card_le
    {after : List Event}
    (hCard : (held before).card ≤ 1)
    (hStart :
      ∀ event ∈ after.head?, ∀ note velocity,
        event.message = .noteOn note velocity →
          note ∉ held before)
    (hStop :
      ∀ event ∈ after.head?, ∀ note,
        event.message = .noteOff note →
          note ∈ held before) :
    CutsOneNote before after where
  start_silent := hStart
  stop_sounding := hStop
  overlap := by
    intro hMore
    omega

/- A cut in front of an event shows the same however the
stream goes on. -/
theorem append
    {event : Event}
    {rest : List Event}
    (hCut : CutsOneNote before (event :: rest))
    (more : List Event) :
    CutsOneNote before (event :: rest ++ more) where
  start_silent := hCut.start_silent
  stop_sounding := hCut.stop_sounding
  overlap := by
    intro hMore
    rcases hCut.overlap hMore with
      ⟨front, start, stop, later, note, old, velocity,
        hBefore, hAfter, hRest⟩
    exact ⟨front, start, stop, later ++ more, note, old,
      velocity, hBefore, by simp [hAfter], hRest⟩

end CutsOneNote

/- Events are added to a stream whose notes sound one at a
time: only the cuts at its end and behind it are new. -/
theorem IsMonophonic.append
    {events added : List Event}
    (hEvents : IsMonophonic events)
    (hAdded :
      ∀ front rest, added = front ++ rest →
        CutsOneNote (events ++ front) rest) :
    IsMonophonic (events ++ added) := by
  intro before after hSplit
  rcases List.append_eq_append_iff.mp hSplit with
    ⟨own, hBefore, hOwn⟩ | ⟨later, hLater, hAfter⟩
  · rw [hBefore]
    exact hAdded own after hOwn
  · cases later with
    | nil =>
        rw [List.append_nil] at hLater
        have hCut := hAdded [] added rfl
        rw [List.append_nil, hLater] at hCut
        rwa [hAfter, List.nil_append]
    | cons next rest =>
        rw [hAfter]
        exact (hEvents before (next :: rest) hLater).append
          added

/- One event is added where one note sounds at most, before
and after. -/
theorem IsMonophonic.concat
    {events : List Event}
    {event : Event}
    (hEvents : IsMonophonic events)
    (hBefore : (held events).card ≤ 1)
    (hAfter : (held (events ++ [event])).card ≤ 1)
    (hStart :
      ∀ note velocity,
        event.message = .noteOn note velocity →
          note ∉ held events)
    (hStop :
      ∀ note,
        event.message = .noteOff note →
          note ∈ held events) :
    IsMonophonic (events ++ [event]) := by
  apply hEvents.append
  intro front rest hSplit
  cases front with
  | nil =>
      rw [List.nil_append] at hSplit
      subst hSplit
      rw [List.append_nil]
      exact .of_card_le hBefore (by simpa using hStart)
        (by simpa using hStop)
  | cons first front =>
      have hAll : first = event ∧ front = [] ∧ rest = [] := by
        simpa [eq_comm] using hSplit
      rcases hAll with ⟨rfl, rfl, rfl⟩
      exact .of_card_le hAfter (by simp) (by simp)

/- A note that takes over from another one sounds together
with it between two events. -/
theorem IsMonophonic.takeOver
    {events : List Event}
    {first second : Event}
    {note old velocity : UInt8}
    (hEvents : IsMonophonic events)
    (hHeld : held events = {old})
    (hOther : note ≠ old)
    (hStart : first.message = .noteOn note velocity)
    (hStop : second.message = .noteOff old)
    (hDelta : second.delta = 0)
    (hAfter : (held (events ++ [first, second])).card ≤ 1) :
    IsMonophonic (events ++ [first, second]) := by
  apply hEvents.append
  intro front rest hSplit
  match front, rest, hSplit with
  | [], _, rfl =>
      rw [List.append_nil]
      refine .of_card_le (by simp [hHeld]) ?_ ?_
      · simp [hStart, hHeld, hOther]
      · simp [hStart]
  | [_], _, rfl =>
      have hBoth : held (events ++ [first]) = {note, old} := by
        simp [hStart, hHeld, Message.changeHeld]
      refine ⟨?_, ?_, ?_⟩
      · simp [hStop]
      · simp [hStop, hStart, hHeld, Message.changeHeld]
      · intro _
        exact ⟨events, first, second, [], note, old, velocity,
          rfl, rfl, hStart, hStop, hDelta, hHeld, hBoth⟩
  | [_, _], [], rfl =>
      exact .of_card_le hAfter (by simp) (by simp)

/- In a stream with a single voice the notes sound one at a
time. -/
theorem SingleVoice.isMonophonic
    {events : List Event}
    {sounding : Option UInt8}
    (hVoice : SingleVoice events sounding) :
    IsMonophonic events := by
  induction hVoice with
  | silence =>
      intro before after hSplit
      have hEmpty : before = [] ∧ after = [] := by
        simpa using hSplit.symm
      rcases hEmpty with ⟨rfl, rfl⟩
      exact .of_card_le (by simp) (by simp) (by simp)
  | neutral hBefore hNeutral ih =>
      refine ih.concat hBefore.card_held_le_one
        (hBefore.neutral hNeutral).card_held_le_one ?_ ?_
      · intro note velocity hStart
        simp [hStart] at hNeutral
      · intro note hStop
        simp [hStop] at hNeutral
  | start hBefore hStart ih =>
      refine ih.concat hBefore.card_held_le_one
        (hBefore.start hStart).card_held_le_one ?_ ?_
      · simp [hBefore.held_eq]
      · simp [hStart]
  | takeOver hBefore hOther hStart hStop hDelta ih =>
      have hAfter := (hBefore.takeOver hOther hStart hStop
        hDelta).card_held_le_one
      rw [List.append_assoc] at hAfter ⊢
      exact ih.takeOver hBefore.held_eq hOther hStart hStop
        hDelta hAfter
  | stop hBefore hStop ih =>
      refine ih.concat hBefore.card_held_le_one
        (hBefore.stop hStop).card_held_le_one ?_ ?_
      · simp [hStop]
      · simp [hStop, hBefore.held_eq]

end Midi

end Carnatic
