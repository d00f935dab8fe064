import Carnatic.Proofs.Curve.Checkpoints
import Carnatic.Proofs.Registry.History
import Carnatic.Proofs.Segment.Building
import Carnatic.Proofs.Settings.Validity
import Carnatic.Proofs.Token.Spaced

/-
  Curves that songs can name.

  Valid settings give curves names that lead with a colon. A
  song plays a curve where the name is one of its words.
  Nothing keeps a name from having a blank, and then no text
  plays the curve. All other curves are played where a song
  writes their names.

  Main declarations:
    * `Settings.isGamakaName_of_registry`
    * `Song.exists_gamaka_of_mem`
    * `Song.ofText_single`
    * `Registry.IsNamed`
    * `Settings.isNamed_of_registry`
-/

------------------------------------------------------------
-- Registered Names
------------------------------------------------------------

namespace Carnatic

variable {R : Type} [Scalar R]

namespace Registry

theorem isGamakaName_of_builtin
    {name : String}
    {curve : Curve R}
    (hCurve : builtinCurve? name = some curve) :
    Settings.isGamakaName name = true := by
  unfold builtinCurve? at hCurve
  split_ifs at hCurve with hFlat hSlide
  · rw [hFlat]
    decide
  · rw [hSlide]
    decide

/- The curve that was accepted last for a name was attempted
under this name. -/
theorem mem_of_lastAccepted?
    {attempts : List (String × List (R × R))}
    {name : String}
    {curve : Curve R}
    (hLast : lastAccepted? attempts name = some curve) :
    name ∈ attempts.map Prod.fst := by
  rcases List.mem_filterMap.mp (List.mem_of_getLast? hLast) with
    ⟨entry, hEntry, _⟩
  rw [List.mem_filter, decide_eq_true_iff] at hEntry
  exact List.mem_map.mpr ⟨entry, hEntry⟩

end Registry

namespace Settings

variable {settings : Settings R}
variable {registry : Registry R}
variable {name : String}
variable {curve : Curve R}

/- All names of a registry of valid settings lead with a
colon, the built-in ones as well. -/
theorem isGamakaName_of_registry
    (hValid : settings.IsValid)
    (hRegistry : settings.registry = .ok registry)
    (hCurve : registry.get? name = some curve) :
    isGamakaName name = true := by
  rcases registerAll_eq_ok_iff.mp hRegistry with ⟨_, rfl⟩
  rw [Registry.get?_after, Option.or_eq_some_iff,
    Registry.get?_builtin] at hCurve
  rcases hCurve with hLast | ⟨_, hBuiltin⟩
  · exact hValid.isGamakaName name
      (Registry.mem_of_lastAccepted? hLast)
  · exact Registry.isGamakaName_of_builtin hBuiltin

theorem isFiled_of_registry
    (hRegistry : settings.registry = .ok registry) :
    registry.IsFiled := by
  rcases registerAll_eq_ok_iff.mp hRegistry with ⟨_, rfl⟩
  exact Registry.isFiled_builtin.after _

end Settings

------------------------------------------------------------
-- Played Curves
------------------------------------------------------------

/- The curve of a segment is that of a gamaka of the song. -/
theorem Song.exists_gamaka_of_mem
    {song : Song}
    {registry : Registry R}
    {tune : List (Segment R)}
    (hTune : song.segments registry = .ok tune)
    {segment : Segment R}
    (hSegment : segment ∈ tune) :
    ∃ gamaka ∈ song.gamakas,
      registry.get? gamaka.name = some segment.curve := by
  have hSegments := hasSegments_of_segments hTune
  rcases List.mem_iff_getElem.mp hSegment with
    ⟨index, hIndex, rfl⟩
  have hBoth := hIndex
  rw [hSegments.length_eq, Nat.lt_min] at hBoth
  rcases hSegments.plays index _ _
      (List.getElem?_eq_getElem hBoth.1)
      (List.getElem?_eq_getElem hBoth.2) with
    ⟨segment, hFound, hPlays⟩
  rw [List.getElem?_eq_getElem hIndex,
    Option.some.injEq] at hFound
  rw [hFound]
  exact ⟨_, List.getElem_mem hBoth.2, hPlays.get?_eq⟩

/- The name of a curve that is played is the word of a token of
the text. -/
theorem Segment.exists_token_of_mem
    {registry : Registry R}
    (hFiled : registry.IsFiled)
    {text : String}
    {tune : List (Segment R)}
    (hTune : Segment.ofText registry text = .ok tune)
    {segment : Segment R}
    (hSegment : segment ∈ tune) :
    ∃ tokens,
      Token.ofText text = .ok tokens ∧
        ∃ token ∈ tokens, token.word = segment.curve.name := by
  rcases ofText_eq_ok_iff.mp hTune with
    ⟨song, hSong, hSegments⟩
  rcases Song.ofText_eq_ok_iff.mp hSong with
    ⟨tokens, hTokens, hRead⟩
  rcases Song.exists_gamaka_of_mem hSegments hSegment with
    ⟨gamaka, hGamaka, hCurve⟩
  refine ⟨tokens, hTokens, gamaka.token, ?_, ?_⟩
  · exact Song.token_mem_of_mem_gamakas
      (Song.ofTokens_eq_ok_iff.mp hRead).2 hGamaka
  · exact (hFiled _ _ hCurve).symm

------------------------------------------------------------
-- One Svara
------------------------------------------------------------

/- A text of one svara with a gamaka. -/
def Text.single (name : String) : String :=
  "\x7b sa \x7d \x7b " ++ name ++ " \x7d"

theorem Text.single_eq (name : String) :
    single name =
      spaced "\x7b sa \x7d \x7b" name "\x7d" := by
  apply String.toList_injective
  simp [single, spaced]

/- A svara of one unit and its gamaka are a song. -/
theorem Song.ofTokens_single
    (svara : Svara)
    (gamaka : Gamaka)
    {first firstEnd second secondEnd : Token}
    (hUnit : svara.duration = 1)
    (hFirst : first.kind = .listStart)
    (hFirstEnd : firstEnd.kind = .listEnd)
    (hSecond : second.kind = .listStart)
    (hSecondEnd : secondEnd.kind = .listEnd) :
    ofTokens
        [first, svara.token, firstEnd, second, gamaka.token,
          secondEnd] =
      .ok ⟨[⟨[svara], [gamaka], first.position⟩]⟩ := by
  have hBalanced :
      Line.IsBalanced ⟨[svara], [gamaka], first.position⟩ :=
    { length_eq := rfl
      duration_pos := by simp [hUnit]
      noneContinues := by simp [Svara.NoneContinues] }
  have hSvara : svara.WrittenBy [svara.token] :=
    ⟨[], rfl, by simp, hUnit.symm⟩
  have hLine :
      Line.WrittenBy ⟨[svara], [gamaka], first.position⟩
        [first, svara.token, firstEnd, second, gamaka.token,
          secondEnd] :=
    ⟨first, firstEnd, second, secondEnd, [svara.token], rfl,
      hFirst, rfl, hFirstEnd, hSecond, hSecondEnd,
      .cons hSvara .nil⟩
  refine ofTokens_eq_ok_iff.mpr ⟨?_, .cons hLine .nil⟩
  intro line hOnly
  rw [List.mem_singleton.mp hOnly]
  exact hBalanced

/- The song of a text with one svara and a gamaka. -/
theorem Song.ofText_single
    {name : String}
    (hOne : Token.IsOneToken name) :
    ofText (Text.single name) =
      .ok ⟨[⟨[⟨"sa", 1, ⟨1, 3⟩⟩], [⟨name, ⟨1, 10⟩⟩],
        ⟨1, 1⟩⟩]⟩ := by
  have hFront :
      Token.ofText "\x7b sa \x7d \x7b" =
        .ok
          [⟨.listStart, "\x7b", ⟨1, 1⟩⟩,
            ⟨.svaraName, "sa", ⟨1, 3⟩⟩,
            ⟨.listEnd, "\x7d", ⟨1, 6⟩⟩,
            ⟨.listStart, "\x7b", ⟨1, 8⟩⟩] := by
    decide +kernel
  have hBehind :
      Token.ofText "\x7d" =
        .ok [⟨.listEnd, "\x7d", ⟨1, 1⟩⟩] := by
    decide +kernel
  rcases hOne.tokens_eq _ _ _ _ hFront hBehind with
    ⟨more, hTokens, hMore⟩
  rw [List.map_singleton, List.map_eq_singleton_iff] at hMore
  rcases hMore with ⟨last, rfl, hLast⟩
  rw [Text.single_eq, ofText_eq_ok_iff]
  have hEnd : last.kind = .listEnd :=
    congrArg Token.kind hLast
  exact ⟨_, hTokens, ofTokens_single ⟨"sa", 1, ⟨1, 3⟩⟩
    ⟨name, ⟨1, 10⟩⟩ rfl rfl rfl rfl hEnd⟩

------------------------------------------------------------
-- Named Curves
------------------------------------------------------------

/-
  How songs reach a curve by its name. The curve has this
  name. Without blanks the name is one token wherever it
  stands between spaces, and as the gamaka of one svara it
  makes one segment along the curve. With a blank it is no
  token of any text, and no text plays the curve.
-/
structure Registry.IsNamed
    (registry : Registry R)
    (name : String)
    (curve : Curve R) : Prop where
  name_eq : curve.name = name
  isOneToken :
    Text.IsUnbroken name → Token.IsOneToken name
  segments_eq :
    Text.IsUnbroken name →
      Segment.ofText registry (Text.single name) =
        .ok [⟨0, 0, 1, curve, ⟨1, 3⟩⟩]
  word_ne :
    ¬ Text.IsUnbroken name →
      ∀ text tokens,
        Token.ofText text = .ok tokens →
          ∀ token ∈ tokens, token.word ≠ name
  curve_ne :
    ¬ Text.IsUnbroken name →
      ∀ text tune,
        Segment.ofText registry text = .ok tune →
          ∀ segment ∈ tune, segment.curve ≠ curve

namespace Settings

variable {settings : Settings R}
variable {registry : Registry R}
variable {name : String}
variable {curve : Curve R}

/- Under valid settings, songs reach exactly the curves whose
names have no blanks. -/
theorem isNamed_of_registry
    (hValid : settings.violation? = none)
    (hRegistry : settings.registry = .ok registry)
    (hCurve : registry.get? name = some curve) :
    registry.IsNamed name curve := by
  have hName := isGamakaName_of_registry
    (violation?_eq_none_iff.mp hValid) hRegistry hCurve
  have hFiled := isFiled_of_registry hRegistry
  constructor
  case name_eq => exact hFiled name curve hCurve
  case isOneToken =>
    intro hUnbroken
    exact Token.isOneToken hName hUnbroken
  case segments_eq =>
    intro hUnbroken
    exact Segment.ofText_eq_ok_iff.mpr
      ⟨_, Song.ofText_single (Token.isOneToken hName hUnbroken),
        Song.segments_single (by decide +kernel) hCurve⟩
  case word_ne =>
    intro hBroken text tokens hTokens token hToken
    exact Token.word_ne_of_not_isUnbroken hBroken hTokens
      hToken
  case curve_ne =>
    rintro hBroken text tune hTune segment hSegment rfl
    rcases Segment.exists_token_of_mem hFiled hTune hSegment
      with ⟨tokens, hTokens, token, hToken, hWord⟩
    apply Token.word_ne_of_not_isUnbroken hBroken hTokens
      hToken
    rw [hWord, hFiled name segment.curve hCurve]

end Settings

------------------------------------------------------------
-- Settings With A Slide
------------------------------------------------------------

/- The slide under another name. -/
def Curve.slideOf (name : String) : Curve Float :=
  { Registry.slide with name := name }

theorem Curve.ofPoints_slideOf (name : String) :
    ofPoints name [((0 : Float), 0), (1, 1)] =
      .ok (slideOf name) :=
  (slideOf name).ofPoints_points

namespace Settings

/- Standard settings with a slide under another name. -/
def withSlide (name : String) : Settings Float :=
  { (standard : Settings Float) with
    gamakas := NameTable.empty.insert name [(0, 0), (1, 1)] }

theorem registry_withSlide (name : String) :
    (withSlide name).registry =
      .ok (Registry.builtin.register (Curve.slideOf name)) := by
  have hSlide := Curve.ofPoints_slideOf name
  change registerAll Registry.builtin
    [(name, [(0, 0), (1, 1)])] = _
  simp only [registerAll, hSlide]

theorem get?_withSlide (name : String) :
    (Registry.builtin.register (Curve.slideOf name)).get?
        name =
      some (Curve.slideOf name) := by
  rw [Registry.get?_register]
  exact if_pos rfl

theorem isNamed_slow :
    Text.IsUnbroken ":slow" ∧
      (withSlide ":slow").violation? = none ∧
      ∃ registry curve,
        (withSlide ":slow").registry = .ok registry ∧
          registry.get? ":slow" = some curve ∧
          registry.IsNamed ":slow" curve := by
  have hValid : (withSlide ":slow").violation? = none := by
    decide +kernel
  exact ⟨by decide +kernel, hValid, _, _,
    registry_withSlide ":slow", get?_withSlide ":slow",
    isNamed_of_registry hValid (registry_withSlide ":slow")
      (get?_withSlide ":slow")⟩

/- A name with a space passes the check, and its curve is
registered. A song that writes the name has a fault. -/
theorem not_isOneToken_slowSlide :
    (withSlide ":slow slide").violation? = none ∧
      ∃ registry curve,
        (withSlide ":slow slide").registry = .ok registry ∧
          registry.get? ":slow slide" = some curve ∧
          ¬ Token.IsOneToken ":slow slide" ∧
          Segment.ofText registry
              (Text.single ":slow slide") =
            .error
              ⟨.unexpected .gamakaName (some "slide"),
                ⟨1, 16⟩⟩ := by
  have hSong :
      Song.ofText (Text.single ":slow slide") =
        .error
          ⟨.unexpected .gamakaName (some "slide"),
            ⟨1, 16⟩⟩ := by
    decide +kernel
  refine ⟨by decide +kernel, _, _,
    registry_withSlide ":slow slide",
    get?_withSlide ":slow slide", ?_, ?_⟩
  · intro hOne
    have hRead := Song.ofText_single hOne
    rw [hSong] at hRead
    cases hRead
  · simp only [Segment.ofText, hSong]

end Settings

end Carnatic
