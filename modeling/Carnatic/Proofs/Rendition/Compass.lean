import Carnatic.Proofs.Pitch.Compass
import Carnatic.Proofs.Registry.History
import Carnatic.Proofs.Rendition.Sustaining

/-
  Shrutis in the middle.

  Every segment of a text starts within the compass of svara
  names. So a device has the notes of every tune when the
  shruti is at least twelve and at most 104, and for any other
  shruti it lacks a note at one end of the compass.

  Main declarations:
    * `Segment.inCompass_of_ofText`
    * `Rendition.RendersTune`
    * `Rendition.LacksNote`
    * `Rendition.coversOctaves`
-/

------------------------------------------------------------
-- Notes Of Tunes
------------------------------------------------------------

namespace Carnatic

variable {R : Type} [Scalar R]

/- Every segment of a text starts within the compass, also
where its offset is carried forward. -/
theorem Segment.inCompass_of_ofText
    {registry : Registry R}
    {text : String}
    {tune : List (Segment R)}
    (hTune : Segment.ofText registry text = .ok tune)
    {segment : Segment R}
    (hSegment : segment ∈ tune) :
    InCompass segment.start := by
  rcases Segment.ofText_eq_ok_iff.mp hTune with
    ⟨song, _, hSegments⟩
  rcases List.getElem?_of_mem hSegment with ⟨index, hIndex⟩
  exact ((Song.hasSegments_of_segments hSegments).endOn
    hIndex).inCompass

/- A device has all notes of the compass of a shruti in the
middle. -/
omit [Scalar R] in
theorem Settings.hasNote_of_inCompass
    {settings : Settings R}
    {offset : Int}
    (hLow : 12 ≤ settings.shruti)
    (hHigh : settings.shruti ≤ 104)
    (hOffset : InCompass offset) :
    settings.HasNote offset := by
  rw [UInt8.le_iff_toNat_le] at hLow hHigh
  change 12 ≤ settings.shruti.toNat at hLow
  change settings.shruti.toNat ≤ 104 at hHigh
  rcases hOffset with ⟨hBelow, hAbove⟩
  constructor
  · omega
  · omega

/- The shruti and an offset of the compass are added within
32 bits. -/
theorem toInt_shruti_add
    (shruti : UInt8)
    {offset : Int}
    (hOffset : InCompass offset) :
    (Int32.ofInt shruti.toNat + Int32.ofInt offset).toInt =
      shruti.toNat + offset := by
  have hShruti := shruti.toNat_lt
  rcases hOffset with ⟨hBelow, hAbove⟩
  rw [Int32.toInt_add,
    Int32.toInt_ofInt_of_le (by omega) (by omega),
    Int32.toInt_ofInt_of_le (by omega) (by omega)]
  apply Int.bmod_eq_of_le
  · omega
  · omega

------------------------------------------------------------
-- Middle Shrutis
------------------------------------------------------------

namespace Rendition

/- A tune whose notes a device has is rendered. -/
theorem exists_ofText_of_hasNote
    {settings : Settings R}
    {registry : Registry R}
    {text : String}
    {tune : List (Segment R)}
    (hTune : Segment.ofText registry text = .ok tune)
    (hNotes :
      ∀ segment ∈ tune, settings.HasNote segment.start) :
    ∃ rendition,
      ofText settings registry text = .ok rendition := by
  cases hEvents : Performance.ofSegments settings tune with
  | error error =>
      rcases Performance.ofSegments_eq_error_iff.mp hEvents
        with ⟨segment, hFirst, _⟩
      exact absurd hNotes hFirst.not_forall
  | ok events =>
      exact ⟨⟨events, tune.length⟩,
        ofText_eq_ok_iff.mpr ⟨tune, hTune, hEvents, rfl⟩⟩

/- A tune of one segment whose note a device lacks is
refused. -/
theorem ofText_of_not_hasNote
    {settings : Settings R}
    {registry : Registry R}
    {text : String}
    {segment : Segment R}
    (hTune : Segment.ofText registry text = .ok [segment])
    (hNote : ¬ settings.HasNote segment.start) :
    ofText settings registry text =
      .error (Performance.noteError settings segment) := by
  have hPlayed :
      Performance.ofSegments settings [segment] =
        .error (Performance.noteError settings segment) := by
    rw [Performance.ofSegments_eq_error_iff]
    refine ⟨segment, ?_, rfl⟩
    rw [isFirstWithout_cons_iff]
    exact .inl ⟨rfl, hNote⟩
  simp only [ofText, hTune, hPlayed]

/- A text that is rendered when it has a tune; the shruti is
added to the offsets of the tune without overflow. -/
structure RendersTune
    (settings : Settings R)
    (registry : Registry R)
    (text : String) : Prop where
  renders :
    ∀ tune,
      Segment.ofText registry text = .ok tune →
        ∃ rendition,
          ofText settings registry text = .ok rendition
  toInt_add :
    ∀ tune,
      Segment.ofText registry text = .ok tune →
        ∀ segment ∈ tune,
          (Int32.ofInt settings.shruti.toNat +
              Int32.ofInt segment.start).toInt =
            settings.shruti.toNat + segment.start

/- Settings under which some text with a tune of built-in
curves is refused, for want of a note. -/
def LacksNote (settings : Settings R) : Prop :=
  ∃ text segment,
    Segment.ofText Registry.builtin text = .ok [segment] ∧
      ofText settings Registry.builtin text =
        .error (Performance.noteError settings segment)

theorem rendersTune_of_middle
    {settings : Settings R}
    (hLow : 12 ≤ settings.shruti)
    (hHigh : settings.shruti ≤ 104)
    (registry : Registry R)
    (text : String) :
    RendersTune settings registry text := by
  constructor
  case renders =>
    intro tune hTune
    apply exists_ofText_of_hasNote hTune
    intro segment hSegment
    exact Settings.hasNote_of_inCompass hLow hHigh
      (Segment.inCompass_of_ofText hTune hSegment)
  case toInt_add =>
    intro tune hTune segment hSegment
    exact toInt_shruti_add settings.shruti
      (Segment.inCompass_of_ofText hTune hSegment)

/- The lowest svara alone, and the highest one. -/
def lowestText : String :=
  "\x7b sa- \x7d \x7b : \x7d"

def highestText : String :=
  "\x7b ni2+ \x7d \x7b : \x7d"

/- A flat svara is one segment that stays on its offset. -/
theorem segments_flat
    {svara : Svara}
    {gamaka line : Position}
    {offset : Int}
    (hOffsets : Song.offsetsOf [svara] = .ok [offset]) :
    Song.segments ⟨[⟨[svara], [⟨":", gamaka⟩], line⟩]⟩
        (Registry.builtin : Registry R) =
      .ok
        [⟨offset, offset, svara.duration, Registry.flat,
          svara.position⟩] :=
  Song.segments_single hOffsets (Registry.get?_builtin ":")

theorem ofText_lowestText :
    Segment.ofText (Registry.builtin : Registry R)
        lowestText =
      .ok [⟨-12, -12, 1, Registry.flat, ⟨1, 3⟩⟩] := by
  have hSong :
      Song.ofText lowestText =
        .ok ⟨[⟨[⟨"sa-", 1, ⟨1, 3⟩⟩], [⟨":", ⟨1, 11⟩⟩],
          ⟨1, 1⟩⟩]⟩ := by
    decide +kernel
  exact Segment.ofText_eq_ok_iff.mpr
    ⟨_, hSong, segments_flat (by decide +kernel)⟩

theorem ofText_highestText :
    Segment.ofText (Registry.builtin : Registry R)
        highestText =
      .ok [⟨23, 23, 1, Registry.flat, ⟨1, 3⟩⟩] := by
  have hSong :
      Song.ofText highestText =
        .ok ⟨[⟨[⟨"ni2+", 1, ⟨1, 3⟩⟩], [⟨":", ⟨1, 12⟩⟩],
          ⟨1, 1⟩⟩]⟩ := by
    decide +kernel
  exact Segment.ofText_eq_ok_iff.mpr
    ⟨_, hSong, segments_flat (by decide +kernel)⟩

/- A low shruti lacks the lowest note, and a high one lacks
the highest. -/
theorem lacksNote_of_outer
    {settings : Settings R}
    (hOuter :
      settings.shruti < 12 ∨ 104 < settings.shruti) :
    LacksNote settings := by
  simp only [UInt8.lt_iff_toNat_lt] at hOuter
  rcases hOuter with hLow | hHigh
  · refine ⟨lowestText, _, ofText_lowestText,
      ofText_of_not_hasNote ofText_lowestText ?_⟩
    rintro ⟨hNote, _⟩
    change settings.shruti.toNat < 12 at hLow
    simp only at hNote
    omega
  · refine ⟨highestText, _, ofText_highestText,
      ofText_of_not_hasNote ofText_highestText ?_⟩
    rintro ⟨_, hNote⟩
    change 104 < settings.shruti.toNat at hHigh
    simp only at hNote
    omega

/-
  Names cover three octaves, so with a shruti from 12 to 104
  every text that has a tune is rendered, and for every other
  shruti there is one that is not.
-/
theorem coversOctaves :
    Pitch.IsCompass Pitch.ofName? ∧
      (∀ (settings : Settings R) registry text,
        12 ≤ settings.shruti →
          settings.shruti ≤ 104 →
            RendersTune settings registry text) ∧
      ∀ settings : Settings R,
        ¬ (12 ≤ settings.shruti ∧ settings.shruti ≤ 104) →
          LacksNote settings := by
  refine ⟨Pitch.isCompass_ofName?, ?_, ?_⟩
  · intro settings registry text hLow hHigh
    exact rendersTune_of_middle hLow hHigh registry text
  · intro settings hOuter
    apply lacksNote_of_outer
    simp only [not_and_or, UInt8.not_le] at hOuter
    exact hOuter

end Rendition

end Carnatic
