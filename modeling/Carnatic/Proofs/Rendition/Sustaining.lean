import Carnatic.Proofs.Performance.Chronicle
import Carnatic.Proofs.Performance.Growth
import Carnatic.Proofs.Segment.Building
import Carnatic.Proofs.Song.Music
import Carnatic.Proofs.Song.Spelling

/-
  Continuations that sound on.

  A song sounds the same when its continuations are spelled
  out. The segment of a continuation starts on the offset of
  the segment in front, so its note sounds already when it
  comes up: it sends its bends and nothing else.

  Main declarations:
    * `Song.start_eq_of_continuation`
    * `Performance.Sustains`
    * `Song.RepeatsNames`
    * `Song.repeatsNames_of_leads`
-/

------------------------------------------------------------
-- Offsets That Are Repeated
------------------------------------------------------------

namespace Carnatic

variable {R : Type} [Scalar R]

namespace Song

/- What svaras end on, they still end on with a continuation
behind them. -/
theorem endOn_take_of_continuation
    {svaras : List Svara}
    {index : Nat}
    {svara : Svara}
    {offset : Int}
    (hSvara : svaras[index]? = some svara)
    (hHold : svara.isContinuation = true)
    (hEnd : Svara.EndOn (svaras.take (index + 1)) offset) :
    Svara.EndOn (svaras.take index) offset := by
  rcases hEnd with ⟨named, hNamed, hNames⟩
  refine ⟨named, ?_, hNames⟩
  rw [List.take_add_one, hSvara] at hNamed
  simpa [List.filter_append, hHold] using hNamed

/- Every segment starts on the offset that the svaras up to its
own one end on. -/
theorem HasSegments.endOn
    {song : Song}
    {registry : Registry R}
    {tune : List (Segment R)}
    (hBuilt : song.HasSegments registry tune)
    {index : Nat}
    {segment : Segment R}
    (hSegment : tune[index]? = some segment) :
    Svara.EndOn (song.svaras.take (index + 1))
      segment.start := by
  have hIndex := (List.getElem?_eq_some_iff.mp hSegment).1
  rw [hBuilt.length_eq, Nat.lt_min] at hIndex
  rcases hBuilt.plays index _ _
      (List.getElem?_eq_getElem hIndex.1)
      (List.getElem?_eq_getElem hIndex.2) with
    ⟨found, hFound, hPlays⟩
  rw [hSegment, Option.some.injEq] at hFound
  rw [hFound]
  exact hPlays.endOn

/- The segment of a continuation is not the first one, and
starts where the one in front of it does. -/
theorem start_eq_of_continuation
    {song : Song}
    {registry : Registry R}
    {before after : List (Segment R)}
    {segment : Segment R}
    {svara : Svara}
    (hTune :
      song.segments registry =
        .ok (before ++ segment :: after))
    (hSvara : song.svaras[before.length]? = some svara)
    (hHold : svara.isContinuation = true) :
    ∃ last,
      before.getLast? = some last ∧
        last.start = segment.start := by
  have hBuilt := hasSegments_of_segments hTune
  have hOwn : (before ++ segment :: after)[before.length]? =
      some segment := by
    simp
  have hEnd := endOn_take_of_continuation hSvara hHold
    (hBuilt.endOn hOwn)
  rcases List.eq_nil_or_concat before with
    rfl | ⟨front, last, rfl⟩
  · rcases hEnd with ⟨named, hNamed, _⟩
    simp at hNamed
  · rw [List.concat_eq_append] at *
    have hFront :
        (front ++ [last] ++ segment :: after)[front.length]? =
          some last := by
      simp
    rw [List.length_append, List.length_singleton] at hEnd
    exact ⟨last, List.getLast?_concat,
      (hBuilt.endOn hFront).unique hEnd⟩

end Song

------------------------------------------------------------
-- Notes That Are Not Started Again
------------------------------------------------------------

namespace Performance

/-
  How the segment at an index is played while its note sounds
  on. Behind the events of the segments in front of it, and in
  front of all later ones, it sends a bend for each of its
  ticks. No note starts and none stops.
-/
def Sustains
    (settings : Settings R)
    (tune : List (Segment R))
    (index : Nat)
    (events : List Midi.Event) : Prop :=
  ∃ before segment after reached following bends later,
    tune = before ++ segment :: after ∧
      before.length = index ∧
      (start settings).segments before = .ok reached ∧
      reached.segment segment = .ok following ∧
      following.events.toList =
        reached.events.toList ++ bends ∧
      events = following.events.toList ++ later ∧
      bends.length = ticksOf settings segment ∧
      ∀ bend ∈ bends,
        ∃ value, bend.message = .pitchBend value

/- A segment that starts where the one in front of it does is
played without a change of notes. -/
theorem sustains_of_start_eq
    {settings : Settings R}
    {before after : List (Segment R)}
    {segment last : Segment R}
    {events : List Midi.Event}
    (hEvents :
      ofSegments settings (before ++ segment :: after) =
        .ok events)
    (hLast : before.getLast? = some last)
    (hStart : last.start = segment.start) :
    Sustains settings (before ++ segment :: after)
      before.length events := by
  rcases exists_hasPlayed_of_ofSegments hEvents with
    ⟨final, hFinal, _, rfl⟩
  rcases segments_append_eq_ok_iff.mp hFinal with
    ⟨reached, hBefore, hRest⟩
  rcases segments_cons_eq_ok_iff.mp hRest with
    ⟨following, hSegment, hAfter⟩
  have hPlayed : HasPlayed settings before reached :=
    (hasPlayed_start settings).segments hBefore
  rcases exists_bends_segment hSegment with
    ⟨bends, hBends, hLength, hMessages⟩
  rw [hPlayed.settings_eq] at hBends hLength
  have hSounding :
      reached.sounding = some (noteNumber settings segment) := by
    rw [hPlayed.sounding_eq, hLast]
    simp only [Option.map_some, noteNumber, hStart]
  rw [play_of_sounding hSounding] at hBends
  rcases (events_prefix_segments hAfter).trans
      final.events_prefix_finish with
    ⟨later, hLater⟩
  exact ⟨before, segment, after, reached, following, bends,
    later, rfl, rfl, hBefore, hSegment, hBends, hLater.symm,
    hLength, hMessages⟩

end Performance

------------------------------------------------------------
-- Songs Without Continuations
------------------------------------------------------------

namespace Song

/-
  What continuations mean in a song. With the names that they
  repeat in their places, the song has equal segments or an
  equal error, and is rendered to equal events with any
  settings. Where its own tune is played, no note starts with
  the segment of a continuation.
-/
structure RepeatsNames
    (song : Song)
    (registry : Registry R) : Prop where
  spellsOut : song.SpellsOut song.spelledOut
  segments_eq :
    song.spelledOut.segments registry =
      song.segments registry
  ofSong_eq :
    ∀ settings : Settings R,
      Rendition.ofSong settings registry song.spelledOut =
        Rendition.ofSong settings registry song
  sustains :
    ∀ (settings : Settings R) (tune : List (Segment R))
        (events : List Midi.Event) (index : Nat)
        (svara : Svara),
      song.segments registry = .ok tune →
        Performance.ofSegments settings tune = .ok events →
          song.svaras[index]? = some svara →
            svara.isContinuation = true →
              index < tune.length →
                Performance.Sustains settings tune index
                  events

/- In every song that no continuation leads, continuations
mean the names in front of them. -/
theorem repeatsNames_of_leads
    (song : Song)
    (registry : Registry R)
    (hLeads : Svara.Leads song.svaras) :
    song.RepeatsNames registry where
  spellsOut := spellsOut_spelledOut hLeads
  segments_eq := segments_spelledOut hLeads registry
  ofSong_eq := by
    intro settings
    unfold Rendition.ofSong
    rw [segments_spelledOut hLeads registry]
  sustains := by
    intro settings tune events index svara hTune hEvents
      hSvara hHold hIndex
    have hSplit :
        ∃ before segment after,
          tune = before ++ segment :: after ∧
            before.length = index :=
      ⟨tune.take index, tune[index], tune.drop (index + 1),
        by simp, List.length_take_of_le hIndex.le⟩
    rcases hSplit with ⟨before, segment, after, rfl, rfl⟩
    rcases start_eq_of_continuation hTune hSvara hHold with
      ⟨last, hLast, hStart⟩
    exact Performance.sustains_of_start_eq hEvents hLast
      hStart

/- A line that holds its first svara and has a gamaka too
few, and a line of continuations. -/
def echo : Song where
  lines :=
    [⟨[⟨"pa+", 2, ⟨1, 3⟩⟩, ⟨",", 1, ⟨1, 9⟩⟩,
        ⟨"sa", 1, ⟨1, 11⟩⟩],
      [⟨":/", ⟨1, 18⟩⟩, ⟨":", ⟨1, 21⟩⟩], ⟨1, 1⟩⟩,
      ⟨[⟨",", 3, ⟨2, 3⟩⟩, ⟨",", 1, ⟨2, 9⟩⟩],
      [⟨":", ⟨2, 15⟩⟩, ⟨":/", ⟨2, 17⟩⟩], ⟨2, 1⟩⟩]

theorem repeatsNames_echo :
    Svara.Leads echo.svaras ∧
      echo.spelledOut.svaras.map Svara.name =
        ["pa+", "pa+", "sa", "sa", "sa"] ∧
      echo.RepeatsNames
        (Registry.builtin : Registry Rat) ∧
      ∃ tune events,
        echo.segments Registry.builtin = .ok tune ∧
          Performance.ofSegments Performance.brisk tune =
            .ok events ∧
          Performance.Sustains Performance.brisk tune 3
            events := by
  have hLeads : Svara.Leads echo.svaras := by
    unfold Svara.Leads
    decide +kernel
  have hNames :
      echo.spelledOut.svaras.map Svara.name =
        ["pa+", "pa+", "sa", "sa", "sa"] := by
    decide +kernel
  have hRepeats :=
    repeatsNames_of_leads echo
      (Registry.builtin : Registry Rat) hLeads
  have hLength :
      (echo.segments
          (Registry.builtin : Registry Rat)).map
          List.length =
        .ok 4 := by
    decide +kernel
  have hPlayed :
      (Rendition.ofSong Performance.brisk Registry.builtin
        echo).isOk = true := by
    decide +kernel
  rcases exists_eq_ok_of_map_eq_ok hLength with
    ⟨tune, hTune, hFour⟩
  rcases exists_eq_ok_of_isOk hPlayed with
    ⟨rendition, hRendition⟩
  have hEvents :
      ∃ events,
        Performance.ofSegments Performance.brisk tune =
          .ok events := by
    simp only [Rendition.ofSong, hTune] at hRendition
    cases hRead :
        Performance.ofSegments Performance.brisk tune with
    | error error => simp [hRead] at hRendition
    | ok events => exact ⟨events, rfl⟩
  rcases hEvents with ⟨events, hEvents⟩
  have hSustains := hRepeats.sustains Performance.brisk tune
    events 3 ⟨",", 3, ⟨2, 3⟩⟩ hTune hEvents (by decide +kernel)
    (by decide +kernel) (by omega)
  exact ⟨hLeads, hNames, hRepeats, tune, events, hTune,
    hEvents, hSustains⟩

end Song

end Carnatic
