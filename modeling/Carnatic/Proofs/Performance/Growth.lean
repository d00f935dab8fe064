import Carnatic.Proofs.Performance.Schedule

/-
  What a performance has sent.

  A performance only adds to the events that it has sent, so
  what is played first does not depend on what follows. The
  bends of a segment depend on where it leads, and the last
  note stops only because nothing follows: a tune that goes on
  has all other events of its front.

  Main declarations:
    * `Performance.setup`
    * `Performance.exists_bends_follow`
    * `Performance.events_prefix_segments`
    * `Performance.KeepsAllButLast`
    * `Performance.keepsAllButLast_of_ofSegments`
-/

------------------------------------------------------------
-- Events That Are Added
------------------------------------------------------------

namespace Carnatic

namespace Performance

variable {R : Type}

theorem events_prefix_emit
    (performance : Performance R)
    (message : Midi.Message) :
    performance.events.toList <+:
      (performance.emit message).events.toList := by
  rw [events_emit]
  exact List.prefix_append _ _

theorem events_prefix_foldl_emit
    (performance : Performance R)
    (messages : List Midi.Message) :
    performance.events.toList <+:
      (messages.foldl emit performance).events.toList := by
  induction messages generalizing performance with
  | nil => exact List.prefix_rfl
  | cons message rest ih =>
      exact (performance.events_prefix_emit message).trans
        (ih (performance.emit message))

theorem events_prefix_play
    (performance : Performance R)
    (note : UInt8) :
    performance.events.toList <+:
      (performance.play note).events.toList := by
  rw [play_eq]
  exact performance.events_prefix_foldl_emit _

theorem events_prefix_finish (performance : Performance R) :
    performance.events.toList <+: performance.finish := by
  rw [finish, stop_eq]
  exact performance.events_prefix_foldl_emit _

/- While a note sounds, its end is the last event. -/
theorem finish_of_sounding
    {performance : Performance R}
    {note : UInt8}
    (hSounding : performance.sounding = some note) :
    performance.finish =
      performance.events.toList ++
        [⟨performance.gap, performance.settings.channel,
          .noteOff note⟩] := by
  simp only [finish, stop, hSounding, events_emit]

variable [Scalar R]

/- Following a segment adds a bend for every tick. -/
theorem exists_bends_follow
    (performance : Performance R)
    (segment : Segment R)
    (count : Nat) :
    ∃ bends,
      (performance.follow segment count).events.toList =
          performance.events.toList ++ bends ∧
        bends.length = count ∧
        ∀ bend ∈ bends,
          ∃ value, bend.message = .pitchBend value := by
  induction count with
  | zero => exact ⟨[], by simp [follow]⟩
  | succ count ih =>
      rcases ih with ⟨bends, hEvents, hLength, hBends⟩
      refine ⟨bends ++
        [⟨(performance.follow segment count).gap,
          performance.settings.channel,
          .pitchBend (bendValue
            (bendAt performance.settings segment
              (ticksOf performance.settings segment)
              count))⟩], ?_, ?_, ?_⟩
      · simp [follow, bend, advance, hEvents]
      · rw [List.length_append, hLength, List.length_singleton]
      · intro bend hBend
        rcases List.mem_append.mp hBend with hOld | hNew
        · exact hBends bend hOld
        · rw [List.mem_singleton] at hNew
          exact ⟨_, by rw [hNew]⟩

/- Playing a segment changes to its note, and then adds its
bends. -/
theorem exists_bends_segment
    {performance reached : Performance R}
    {segment : Segment R}
    (hSegment : performance.segment segment = .ok reached) :
    ∃ bends,
      reached.events.toList =
          (performance.play
            (noteNumber performance.settings
              segment)).events.toList ++ bends ∧
        bends.length =
          ticksOf performance.settings segment ∧
        ∀ bend ∈ bends,
          ∃ value, bend.message = .pitchBend value := by
  rcases segment_eq_ok_iff.mp hSegment with
    ⟨note, hNote, rfl⟩
  rw [(noteOf?_eq_some_iff.mp hNote).2.2]
  exact exists_bends_follow _ segment _

theorem events_prefix_segment
    {performance reached : Performance R}
    {segment : Segment R}
    (hSegment : performance.segment segment = .ok reached) :
    performance.events.toList <+: reached.events.toList := by
  rcases exists_bends_segment hSegment with
    ⟨bends, hEvents, _⟩
  rw [hEvents]
  exact (performance.events_prefix_play _).trans
    (List.prefix_append _ bends)

/- Playing segments adds to the events that have been sent. -/
theorem events_prefix_segments
    {performance reached : Performance R}
    {tune : List (Segment R)}
    (hTune : performance.segments tune = .ok reached) :
    performance.events.toList <+: reached.events.toList := by
  induction tune generalizing performance with
  | nil =>
      cases hTune
      exact List.prefix_rfl
  | cons segment rest ih =>
      rcases segments_cons_eq_ok_iff.mp hTune with
        ⟨following, hSegment, hRest⟩
      exact (events_prefix_segment hSegment).trans (ih hRest)

------------------------------------------------------------
-- Tunes That Go On
------------------------------------------------------------

/- The events in front of every tune: the program and the
wheel's reach. -/
def setup (settings : Settings R) : List Midi.Event :=
  (.programChange settings.program :: bendRangeSetup).map
    fun message => ⟨0, settings.channel, message⟩

theorem setup_prefix_of_ofSegments
    {settings : Settings R}
    {tune : List (Segment R)}
    {events : List Midi.Event}
    (hTune : ofSegments settings tune = .ok events) :
    setup settings <+: events := by
  rcases exists_hasPlayed_of_ofSegments hTune with
    ⟨final, hFinal, _, rfl⟩
  exact (events_prefix_segments hFinal).trans
    final.events_prefix_finish

/-
  What is played of a tune when it goes on. All its events but
  those after the beginning of its last segment are played as
  they were. What is lost are the bends of this segment, one
  for each of its ticks, and the end of its note.
-/
structure KeepsAllButLast
    (settings : Settings R)
    (last : Segment R)
    (events longer : List Midi.Event) : Prop where
  kept :
    longer.take
        (events.length - 1 - ticksOf settings last) =
      events.take
        (events.length - 1 - ticksOf settings last)
  lost :
    ∃ bends closing,
      events.drop
            (events.length - 1 - ticksOf settings last) =
          bends ++ [closing] ∧
        bends.length = ticksOf settings last ∧
        (∀ bend ∈ bends,
          ∃ value, bend.message = .pitchBend value) ∧
        closing.message =
          .noteOff (noteNumber settings last)

theorem keepsAllButLast_of_split
    {settings : Settings R}
    {last : Segment R}
    {kept bends more : List Midi.Event}
    {closing : Midi.Event}
    (hLength : bends.length = ticksOf settings last)
    (hBends :
      ∀ bend ∈ bends,
        ∃ value, bend.message = .pitchBend value)
    (hClosing :
      closing.message =
        .noteOff (noteNumber settings last)) :
    KeepsAllButLast settings last
      (kept ++ (bends ++ [closing])) (kept ++ more) := by
  have hCount :
      (kept ++ (bends ++ [closing])).length - 1 -
          ticksOf settings last =
        kept.length := by
    simp only [List.length_append, List.length_singleton,
      hLength]
    omega
  constructor
  · rw [hCount, List.take_left, List.take_left]
  · rw [hCount, List.drop_left]
    exact ⟨bends, closing, rfl, hLength, hBends, hClosing⟩

/- A tune goes on behind a segment that leads somewhere
else then. -/
theorem keepsAllButLast_of_ofSegments
    {settings : Settings R}
    {before after : List (Segment R)}
    {last : Segment R}
    {target : Int}
    {events longer : List Midi.Event}
    (hTune :
      ofSegments settings (before ++ [last]) = .ok events)
    (hLonger :
      ofSegments settings
          (before ++ { last with target := target } :: after) =
        .ok longer) :
    KeepsAllButLast settings last events longer := by
  rcases exists_hasPlayed_of_ofSegments hTune with
    ⟨final, hFinal, hPlayed, rfl⟩
  rcases exists_hasPlayed_of_ofSegments hLonger with
    ⟨other, hOther, _, rfl⟩
  rcases segments_append_eq_ok_iff.mp hFinal with
    ⟨reached, hBefore, hLast⟩
  rcases segments_append_eq_ok_iff.mp hOther with
    ⟨same, hSame, hOn⟩
  rw [hBefore, Except.ok.injEq] at hSame
  subst hSame
  -- Both tunes go on from one state with the same note, so
  -- their events part at the first bend at the earliest.
  have hSettings : reached.settings = settings :=
    ((hasPlayed_start settings).segments hBefore).settings_eq
  rcases segments_cons_eq_ok_iff.mp hLast with
    ⟨_, hSegment, hDone⟩
  cases hDone
  rcases segments_cons_eq_ok_iff.mp hOn with
    ⟨following, hOtherSegment, hAfter⟩
  rcases exists_bends_segment hSegment with
    ⟨bends, hEvents, hLength, hBends⟩
  rcases exists_bends_segment hOtherSegment with
    ⟨otherBends, hOtherEvents, _⟩
  rw [hSettings] at hEvents hLength hOtherEvents
  have hSounding :
      final.sounding = some (noteNumber settings last) := by
    simp [hPlayed.sounding_eq]
  rcases (events_prefix_segments hAfter).trans
      other.events_prefix_finish with
    ⟨later, hLater⟩
  rw [← hLater, hOtherEvents, finish_of_sounding hSounding,
    hEvents, List.append_assoc, List.append_assoc]
  exact keepsAllButLast_of_split hLength hBends rfl

end Performance

end Carnatic
