import Carnatic.Proofs.Performance.Growth
import Carnatic.Proofs.Rendition.Tune

/-
  Texts that go on.

  What is written behind a song changes little of what is
  played of it. Its tokens, lines, offsets and curves stay,
  and so do its segments up to where the last one leads. All
  events stay that come before the bends of this segment.

  Main declarations:
    * `Song.exists_lines_of_ofText`
    * `Song.exists_segments_append`
    * `Rendition.Continues`
    * `Rendition.continues_of_ofText`
-/

------------------------------------------------------------
-- Songs That Go On
------------------------------------------------------------

namespace Carnatic

namespace Song

/- The lines behind a song follow its own. -/
theorem exists_lines_of_ofText
    {front behind : String}
    {song longer : Song}
    (hSong : ofText front = .ok song)
    (hLonger : ofText (front ++ "\n" ++ behind) = .ok longer) :
    ∃ lines, longer.lines = song.lines ++ lines := by
  rcases ofText_eq_ok_iff.mp hSong with
    ⟨tokens, hTokens, hRead⟩
  rcases ofText_eq_ok_iff.mp hLonger with
    ⟨_, hLongerTokens, hLongerRead⟩
  rcases Token.exists_append_of_ofText hLongerTokens with
    ⟨own, more, rfl, hOwn⟩
  rw [hTokens, Except.ok.injEq] at hOwn
  subst hOwn
  exact exists_lines_append hRead hLongerRead

variable {R : Type} [Scalar R]

/- Lines behind a song have an effect on no segment of it but
the last, and there on the target only. -/
theorem exists_segments_append
    {song longer : Song}
    {lines : List Line}
    {registry : Registry R}
    {tune more before : List (Segment R)}
    {last : Segment R}
    (hBalanced : song.IsBalanced)
    (hLines : longer.lines = song.lines ++ lines)
    (hTune : song.segments registry = .ok tune)
    (hMore : longer.segments registry = .ok more)
    (hLast : tune = before ++ [last]) :
    ∃ target after,
      more =
        before ++ { last with target := target } :: after := by
  rcases exists_join_of_segments hBalanced hTune with
    ⟨offsets, curves, hSound, hCurves, hLength, rfl⟩
  rcases segments_eq_ok_iff.mp hMore with
    ⟨_, _, hAllOffsets, hAllCurves, rfl⟩
  have hAllSound := soundAt_of_offsetsOf hAllOffsets
  rw [svaras, hLines, List.flatMap_append] at hAllSound ⊢
  rw [gamakas, hLines, List.flatMap_append,
    curvesOf_eq_mapM] at hAllCurves
  rcases hSound.exists_append hAllSound with ⟨later, rfl⟩
  rcases exists_append_of_mapM hAllCurves with
    ⟨own, others, rfl, hOwn⟩
  rw [← curvesOf_eq_mapM] at hOwn
  have hSame := hCurves.symm.trans hOwn
  rw [Except.ok.injEq] at hSame
  subst hSame
  exact exists_join_append hSound.length_eq hLength hLast
    _ later others

end Song

------------------------------------------------------------
-- Renditions That Go On
------------------------------------------------------------

namespace Rendition

variable {R : Type}
variable [Scalar R]

/-
  How the rendition of a song is kept when its text goes on.
  Every svara has a segment. The segments stay what they are,
  with their places, but the last one may lead elsewhere. The
  events stay up to the bends of the last segment. A song
  without svaras has the seven events of the setup, and with
  them any rendition begins.
-/
structure Continues
    (settings : Settings R)
    (song : Song)
    (tune longerTune : List (Segment R))
    (rendition longer : Rendition) : Prop where
  length_eq : tune.length = song.svaras.length
  tune_eq :
    ∀ before last,
      tune = before ++ [last] →
        ∃ target after,
          longerTune =
            before ++ { last with target := target } :: after
  events_eq :
    ∀ before last,
      tune = before ++ [last] →
        Performance.KeepsAllButLast settings last
          rendition.events longer.events
  silence :
    song.svaras = [] →
      rendition.events = Performance.setup settings ∧
        rendition.events.length = 7 ∧
        rendition.events <+: longer.events

/- Where a text and the text that goes on behind it are both
rendered, the second rendition continues the first. -/
theorem continues_of_ofText
    (settings : Settings R)
    (registry : Registry R)
    (front behind : String)
    (rendition longer : Rendition)
    (hFront :
      ofText settings registry front = .ok rendition)
    (hWhole :
      ofText settings registry (front ++ "\n" ++ behind) =
        .ok longer) :
    ∃ song tune longerTune,
      Song.ofText front = .ok song ∧
        Segment.ofText registry front = .ok tune ∧
        Segment.ofText registry (front ++ "\n" ++ behind) =
          .ok longerTune ∧
        Continues settings song tune longerTune
          rendition longer := by
  rcases ofText_eq_ok_iff.mp hFront with
    ⟨tune, hTune, hEvents, _⟩
  rcases ofText_eq_ok_iff.mp hWhole with
    ⟨longerTune, hLongerTune, hLongerEvents, _⟩
  rcases Segment.ofText_eq_ok_iff.mp hTune with
    ⟨song, hSong, hSegments⟩
  rcases Segment.ofText_eq_ok_iff.mp hLongerTune with
    ⟨longerSong, hLongerSong, hLongerSegments⟩
  rcases Song.isOf_iff.mpr hSong with
    ⟨_, _, hBalanced, _⟩
  rcases Song.exists_lines_of_ofText hSong hLongerSong with
    ⟨lines, hLines⟩
  have hLength : tune.length = song.svaras.length := by
    rcases Song.exists_join_of_segments hBalanced hSegments
      with ⟨offsets, curves, hSound, _, hCurves, rfl⟩
    exact Song.length_join hSound.length_eq hCurves
  have hGoesOn :
      ∀ before last,
        tune = before ++ [last] →
          ∃ target after,
            longerTune =
              before ++
                { last with target := target } :: after := by
    intro before last hLast
    exact Song.exists_segments_append hBalanced hLines
      hSegments hLongerSegments hLast
  refine ⟨song, tune, longerTune, hSong, hTune, hLongerTune,
    hLength, hGoesOn, ?_, ?_⟩
  · intro before last hLast
    rcases hGoesOn before last hLast with
      ⟨target, after, hLonger⟩
    rw [hLast] at hEvents
    rw [hLonger] at hLongerEvents
    exact Performance.keepsAllButLast_of_ofSegments
      hEvents hLongerEvents
  · intro hNone
    rw [hNone, List.length_nil,
      List.length_eq_zero_iff] at hLength
    subst hLength
    have hSetup :
        rendition.events = Performance.setup settings :=
      (Except.ok.inj hEvents).symm
    rw [hSetup]
    exact ⟨rfl, rfl,
      Performance.setup_prefix_of_ofSegments hLongerEvents⟩

/- A line that ends on a slide, and a line that begins with
the svara in front of it. -/
def firstLine : String :=
  "\x7b sa , pa \x7d\n\x7b : :/ \x7d"

def secondLine : String :=
  "\x7b , sa+ \x7d \x7b :/ : \x7d"

theorem continues_firstLine :
    ∃ rendition longer song tune longerTune,
      ofText Performance.brisk Registry.builtin firstLine =
          .ok rendition ∧
        ofText Performance.brisk Registry.builtin
            (firstLine ++ "\n" ++ secondLine) =
          .ok longer ∧
        song.svaras.length = 2 ∧
        Continues Performance.brisk song tune longerTune
          rendition longer := by
  have hFirst :
      (ofText Performance.brisk Registry.builtin
        firstLine).isOk = true := by
    decide +kernel
  have hBoth :
      (ofText Performance.brisk Registry.builtin
        (firstLine ++ "\n" ++ secondLine)).isOk = true := by
    decide +kernel
  have hSvaras :
      (Song.ofText firstLine).map
          (fun song => song.svaras.length) =
        .ok 2 := by
    decide +kernel
  rcases exists_eq_ok_of_isOk hFirst with
    ⟨rendition, hRendition⟩
  rcases exists_eq_ok_of_isOk hBoth with ⟨longer, hLonger⟩
  rcases continues_of_ofText Performance.brisk
      Registry.builtin firstLine secondLine rendition longer
      hRendition hLonger with
    ⟨song, tune, longerTune, hSong, _, _, hContinues⟩
  rw [hSong] at hSvaras
  exact ⟨rendition, longer, song, tune, longerTune,
    hRendition, hLonger, Except.ok.inj hSvaras, hContinues⟩

end Rendition

end Carnatic
