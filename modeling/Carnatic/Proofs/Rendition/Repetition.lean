import Carnatic.Proofs.Rendition.Layout
import Carnatic.Proofs.Rendition.Tune
import Carnatic.Proofs.Song.Division
import Carnatic.Proofs.Song.Tokens
import Carnatic.Proofs.Text.Places
import Carnatic.Proofs.Text.Replacing

/-
  Svaras repeated in place of holds.

  Under the flat gamaka, a hold of a svara and the svara again
  sound alike. In a text, any hold can therefore be replaced
  by the name of its svara, where the gamaka is written twice:
  the events stay the same, and there is one segment more.

  Main declarations:
    * `Rendition.ofSong_cut`
    * `Svara.IsHeldBy`
    * `Cut.Writing.AreTokens`
    * `Rendition.repeated`
    * `Rendition.repeats_of_ofText`
-/

------------------------------------------------------------
-- Renditions Of A Cut
------------------------------------------------------------

namespace Carnatic

/- A line can be cut at any of its svaras. -/
theorem Line.exists_cut
    {line : Line}
    {index : Nat}
    {svara : Svara}
    {gamaka : Gamaka}
    (hSvara : line.svaras[index]? = some svara)
    (hGamaka : line.gamakas[index]? = some gamaka)
    (units : Nat) :
    ∃ cut : Cut,
      cut.svara = svara ∧
        cut.gamaka = gamaka ∧
        cut.units = units ∧
        cut.line line.position = line := by
  rcases List.getElem?_eq_some_iff.mp hSvara with
    ⟨hSvaraIndex, rfl⟩
  rcases List.getElem?_eq_some_iff.mp hGamaka with
    ⟨hGamakaIndex, rfl⟩
  let cut : Cut :=
    { svara := line.svaras[index]
      gamaka := line.gamakas[index]
      units := units
      svarasBefore := line.svaras.take index
      svarasAfter := line.svaras.drop (index + 1)
      gamakasBefore := line.gamakas.take index
      gamakasAfter := line.gamakas.drop (index + 1)
      length_eq := by
        rw [List.length_take_of_le hGamakaIndex.le,
          List.length_take_of_le hSvaraIndex.le] }
  refine ⟨cut, rfl, rfl, rfl, ?_⟩
  simp only [cut, Cut.line, Cut.svaras, Cut.gamakas,
    List.getElem_cons_drop, List.take_append_drop]

/- A svara of a song with segments has a known name. -/
theorem Song.exists_namesOffset_of_segments
    {R : Type} [Scalar R]
    {song : Song}
    {registry : Registry R}
    {tune : List (Segment R)}
    {svara : Svara}
    (hTune : song.segments registry = .ok tune)
    (hSvara : svara ∈ song.svaras)
    (hNamed : svara.isContinuation = false) :
    ∃ offset, Svara.NamesOffset svara.name offset := by
  have hResolved := exists_segments_iff.mp ⟨tune, hTune⟩
  rcases hResolved.pitches svara hSvara with hHold | hNames
  · simp [Svara.isContinuation, hHold] at hNamed
  · exact hNames

namespace Rendition

variable {settings : Settings Float}
variable {registry : Registry Float}
variable {rendition : Rendition}

/- A svara under the flat gamaka sounds the same when it is
cut, and has two segments. -/
theorem ofSong_cut
    {cut : Cut}
    {position : Position}
    {before after : List Line}
    (hBalanced : ∀ line ∈ before, line.IsBalanced)
    (hNamed : cut.svara.isContinuation = false)
    (hFlat :
      registry.get? cut.gamaka.name = some Registry.flat)
    (hProper : cut.IsProper)
    (hFits :
      cut.svara.duration * settings.ticksPerUnit.toNat <
        UInt32.size)
    (hSong :
      ofSong settings registry
          ⟨before ++ cut.line position :: after⟩ =
        .ok rendition) :
    ofSong settings registry
        ⟨before ++ cut.partLine position :: after⟩ =
      .ok ⟨rendition.events, rendition.segmentCount + 1⟩ := by
  rcases ofSong_eq_ok_iff.mp hSong with
    ⟨tune, hTune, hEvents, hCount⟩
  let whole := cut.within before after hBalanced
  have hSvaras :
      Song.svaras ⟨before ++ cut.line position :: after⟩ =
        whole.svaras :=
    cut.svaras_within position before after hBalanced
  have hSvara :
      cut.svara ∈
        Song.svaras ⟨before ++ cut.line position :: after⟩ := by
    rw [hSvaras]
    simp [whole, Cut.within, Cut.svaras]
  rcases Song.exists_namesOffset_of_segments hTune hSvara
      hNamed with
    ⟨offset, hOffset⟩
  have hNames :
      Svara.NamesOffset whole.svara.name offset := hOffset
  rcases Song.segments_cut hNames hFlat hSvaras
      (cut.gamakas_within position before after hBalanced)
      (cut.partSvaras_within position before after hBalanced)
      (cut.partGamakas_within position before after hBalanced)
      hTune with
    ⟨first, segment, last, rfl, hStart, hCurve, hDuration,
      hParts⟩
  have hInCompass : InCompass segment.start :=
    hStart ▸ (Svara.namesOffset_iff.mp hOffset).1
  -- The parts have the curve and the start of the whole.
  have hWhole : Performance.IsStill settings segment :=
    Performance.wheelAt_of_flat hCurve hInCompass
  have hUpTo :
      Performance.IsStill settings (segment.upTo cut.units) :=
    Performance.wheelAt_of_flat hCurve hInCompass
  have hBeyond :
      Performance.IsStill settings
        (segment.beyond cut.units) :=
    Performance.wheelAt_of_flat hCurve hInCompass
  have hDuration : segment.duration = cut.svara.duration :=
    hDuration
  rw [← hDuration] at hFits
  have hUnits : cut.units ≤ segment.duration := by
    rw [hDuration]
    exact hProper.units_lt.le
  refine ofSong_eq_ok_iff.mpr ⟨_, hParts, ?_, ?_⟩
  · exact Performance.ofSegments_cut hWhole hUpTo hBeyond
      hUnits hFits hEvents
  · rw [hCount]
    simp only [List.length_append, List.length_cons,
      Nat.add_assoc]

end Rendition

------------------------------------------------------------
-- Words Of A Cut
------------------------------------------------------------

/- A token continues exactly when its word is the comma. -/
theorem Word.IsToken.isContinuation_iff
    {word : Word}
    {token : Token}
    (hToken : word.IsToken token) :
    token.isContinuation = true ↔ word.text = continuation := by
  rcases hToken with ⟨hAdmits, hText, _⟩
  rw [Token.isContinuation, Bool.and_eq_true,
    decide_eq_true_eq, decide_eq_true_eq, hText]
  constructor
  · exact And.right
  · intro hComma
    refine ⟨?_, hComma⟩
    have hLetters : word.letters = [','] :=
      ofList_eq_iff.mp hComma
    rw [hLetters] at hAdmits
    exact hAdmits.unique .continuation

/- Where tokens do not lead with a continuation, their words
do not. -/
theorem text_ne_continuation_of_head?
    {words : List Word}
    {tokens : List Token}
    (hTokens : List.Forall₂ Word.IsToken words tokens)
    (hHead :
      ∀ token ∈ tokens.head?, token.isContinuation = false) :
    ∀ word ∈ words.head?, word.text ≠ continuation := by
  intro word hWord hComma
  cases hTokens with
  | nil => simp at hWord
  | cons hFirst _ =>
      rw [List.head?_cons, Option.mem_some_iff] at hWord
      subst hWord
      have hHold := hFirst.isContinuation_iff.mpr hComma
      rw [hHead _ rfl] at hHold
      exact Bool.false_ne_true hHold

/- A word of a text is a hold of a svara: from the word of the
svara up to it there are continuations only. -/
def Svara.IsHeldBy
    (svara : Svara)
    (text : String)
    (hold : Word) : Prop :=
  ∃ front named holds behind,
    wordsOf text = front ++ named :: (holds ++ hold :: behind) ∧
      named.position = svara.position ∧
      (∀ other ∈ holds, other.text = continuation) ∧
      hold.text = continuation

namespace Cut

namespace Writing

variable {cut : Cut}
variable {writing : Writing}
variable {text : String}

/- Words that are the tokens of a writing: those of its parts,
the word of the svara and that of the gamaka. -/
structure AreTokens
    (writing : Writing)
    (cut : Cut)
    (front run middle last : List Word)
    (named mark : Word) : Prop where
  areFront : List.Forall₂ Word.IsToken front writing.front
  areHolds : List.Forall₂ Word.IsToken run writing.holds
  areMiddle : List.Forall₂ Word.IsToken middle writing.middle
  areLast : List.Forall₂ Word.IsToken last writing.behind
  isName : named.IsToken cut.svara.token
  isMark : mark.IsToken cut.gamaka.token

/- The words of a writing, when one of them is known to be a
hold. -/
theorem exists_areTokens
    {front holds behind : List Word}
    {named hold mark : Word}
    (hWriting : writing.IsOf cut)
    (hTokens : Token.AreWordsOf (writing.tokens cut) text)
    (hWords :
      wordsOf text =
        front ++ named :: (holds ++ hold :: behind))
    (hNamed : named.position = cut.svara.position)
    (hHolds : ∀ other ∈ holds, other.text = continuation)
    (hHold : hold.text = continuation)
    (hMark : mark ∈ wordsOf text)
    (hPlace : mark.position = cut.gamaka.position) :
    ∃ more middle last,
      behind = more ++ (middle ++ mark :: last) ∧
        writing.AreTokens cut front (holds ++ hold :: more)
          middle last named mark := by
  rcases hTokens.exists_split with
    ⟨words, word, later, hSplit, hFront, hWord, hLater⟩
  rcases Word.eq_of_split hWords hSplit
      (hNamed.trans hWord.2.2) with
    ⟨rfl, rfl, rfl⟩
  have hRun :=
    List.forall₂_take_append _ writing.holds _ hLater
  have hRest :=
    List.forall₂_drop_append _ writing.holds _ hLater
  rcases exists_split_of_forall₂ hRest.flip with
    ⟨middle, word, last, hDrop, hMiddle, hGamaka, hLast⟩
  have hSame := List.take_append_drop writing.holds.length
    (holds ++ hold :: behind)
  rw [hDrop] at hSame
  generalize List.take writing.holds.length
    (holds ++ hold :: behind) = run at hRun hSame
  -- The word of the gamaka has its place.
  have hWordOf : word ∈ wordsOf text := by
    simp [hWords, ← hSame]
  obtain rfl : mark = word :=
    (mem_wordsOf_iff.mp hMark).eq_of_position
      (mem_wordsOf_iff.mp hWordOf) (hPlace.trans hGamaka.2.2)
  have hHeads := text_ne_continuation_of_head?
    (List.rel_append hMiddle.flip (.cons hGamaka .nil))
    hWriting.not_isContinuation
  have hEnd :
      ∀ other ∈ (middle ++ mark :: last).head?,
        other.text ≠ continuation := by
    intro other hOther
    apply hHeads
    cases middle <;> simpa using hOther
  rcases exists_run_of_append_eq hSame.symm hHolds hHold
      hEnd with
    ⟨more, rfl, rfl⟩
  exact ⟨more, middle, last, rfl, hFront, hRun,
    hMiddle.flip, hLast.flip, hWord, hGamaka⟩

/- The words with the name in place of the hold, and the mark
of the gamaka twice, are the tokens of both parts. -/
theorem AreTokens.parts
    {front holds more middle last : List Word}
    {named hold mark : Word}
    (hWords :
      writing.AreTokens cut front (holds ++ hold :: more)
        middle last named mark)
    (hUnits : cut.units = holds.length + 1) :
    List.Forall₂ Word.IsToken
      (front ++
        named ::
          (holds ++
            named :: (more ++ (middle ++ mark :: mark :: last))))
      (writing.parts cut) := by
  have hUpTo :=
    List.forall₂_take (cut.units - 1) hWords.areHolds
  have hBeyond := List.forall₂_drop cut.units hWords.areHolds
  rw [hUnits, Nat.add_sub_cancel, List.take_left] at hUpTo
  rw [hUnits, List.append_cons, List.drop_left'
    (by simp)] at hBeyond
  have hMarks :
      List.Forall₂ Word.IsToken (mark :: mark :: last)
        (cut.gamaka.token :: cut.gamaka.token ::
          writing.behind) :=
    .cons hWords.isMark (.cons hWords.isMark hWords.areLast)
  have hSecond :=
    List.rel_append hBeyond
      (List.rel_append hWords.areMiddle hMarks)
  rw [Writing.parts, hUnits, Nat.add_sub_cancel]
  exact List.rel_append hWords.areFront
    (.cons hWords.isName
      (List.rel_append hUpTo (.cons hWords.isName hSecond)))

end Writing

end Cut

------------------------------------------------------------
-- Texts With Repeated Names
------------------------------------------------------------

namespace Rendition

variable {settings : Settings Float}
variable {registry : Registry Float}
variable {rendition : Rendition}
variable {text : String}
variable {song : Song}
variable {line : Line}
variable {svara : Svara}
variable {gamaka : Gamaka}
variable {index : Nat}
variable {hold mark : Word}

/- The words of a text with a held svara, and what is rendered
when its name takes the place of a hold. -/
theorem exists_words_of_isHeldBy
    (hFlat : registry.get? gamaka.name = some Registry.flat)
    (hRendition :
      ofText settings registry text = .ok rendition)
    (hSong : Song.ofText text = .ok song)
    (hLine : line ∈ song.lines)
    (hSvara : line.svaras[index]? = some svara)
    (hGamaka : line.gamakas[index]? = some gamaka)
    (hNamed : svara.isContinuation = false)
    (hHeld : svara.IsHeldBy text hold)
    (hMark : mark ∈ wordsOf text)
    (hPlace : mark.position = gamaka.position)
    (hFits :
      svara.duration * settings.ticksPerUnit.toNat <
        UInt32.size) :
    ∃ front named holds middle last,
      wordsOf text =
          front ++
            named ::
              (holds ++ hold :: (middle ++ mark :: last)) ∧
        named.IsToken svara.token ∧
        mark.IsToken gamaka.token ∧
        ofWords settings registry
            (front ++
              named ::
                (holds ++
                  named :: (middle ++ mark :: mark :: last))) =
          .ok
            ⟨rendition.events, rendition.segmentCount + 1⟩ := by
  rcases hHeld with
    ⟨front, named, holds, behind, hWords, hName, hHolds,
      hHold⟩
  rcases Line.exists_cut hSvara hGamaka
      (holds.length + 1) with
    ⟨cut, rfl, rfl, hUnits, hCut⟩
  rcases Song.ofText_eq_ok_iff.mp hSong with
    ⟨tokens, hTokens, hRead⟩
  rw [ofText_of_song hTokens hRead] at hRendition
  rcases song with ⟨lines⟩
  rcases List.append_of_mem hLine with ⟨before, after, rfl⟩
  have hBalanced := (Song.ofTokens_eq_ok_iff.mp hRead).1
  rw [← hCut] at hRendition hRead
  rcases Cut.exists_writing_of_song hNamed hRead with
    ⟨writing, hWriting, rfl, hParts⟩
  rcases Cut.Writing.exists_areTokens hWriting
      (Token.ofText_eq_ok_iff.mp hTokens) hWords hName hHolds
      hHold hMark hPlace with
    ⟨more, middle, last, rfl, hAreTokens⟩
  have hProper : cut.IsProper := by
    have hLength := hAreTokens.areHolds.length_eq
    have hAll := hWriting.length_eq
    simp only [List.length_append,
      List.length_cons] at hLength
    constructor <;> omega
  have hPartTokens :=
    (hAreTokens.parts hUnits).imp
      fun _ _ hToken => Word.token_eq_ok_iff.mpr hToken
  refine ⟨front, named, holds, more ++ middle, last, ?_,
    hAreTokens.isName, hAreTokens.isMark, ?_⟩
  · rw [hWords, List.append_assoc]
  · rw [List.append_assoc more, ofWords, Song.ofWords,
      mapM_eq_ok_iff.mpr hPartTokens]
    simp only [hParts hProper]
    exact ofSong_cut
      (fun other hOther => hBalanced other (by simp [hOther]))
      hNamed hFlat hProper hFits hRendition

/- A text in which a svara under the flat gamaka has its name
in place of a hold, and the gamaka twice. -/
def repeated
    (svara : Svara)
    (hold mark : Word) : String :=
  hold.respelled mark svara.name.toList [':', ' ', ':']

/- The hold of a svara under the flat gamaka can be replaced
by the name of the svara, when the gamaka is written twice.
The text is rendered with the same events, and with one
segment more. -/
theorem repeats_of_ofText
    (hFlat : registry.get? ":" = some Registry.flat)
    (hRendition :
      ofText settings registry text = .ok rendition)
    (hSong : Song.ofText text = .ok song)
    (hLine : line ∈ song.lines)
    (hSvara : line.svaras[index]? = some svara)
    (hGamaka : line.gamakas[index]? = some gamaka)
    (hNamed : svara.isContinuation = false)
    (hColon : gamaka.name = ":")
    (hHeld : svara.IsHeldBy text hold)
    (hMark : mark ∈ wordsOf text)
    (hPlace : mark.position = gamaka.position)
    (hFits :
      svara.duration * settings.ticksPerUnit.toNat <
        UInt32.size) :
    ofText settings registry (repeated svara hold mark) =
      .ok ⟨rendition.events, rendition.segmentCount + 1⟩ := by
  rw [← hColon] at hFlat
  rcases exists_words_of_isHeldBy hFlat hRendition hSong hLine
      hSvara hGamaka hNamed hHeld hMark hPlace hFits with
    ⟨front, named, holds, middle, last, hWords, hNamedToken,
      hMarkToken, hRepeated⟩
  have hName : svara.name = named.text := hNamedToken.2.1
  have hColonText : mark.text = ":" :=
    hMarkToken.2.1.symm.trans hColon
  have hNamedIn : named.IsIn text.toList :=
    mem_wordsOf_iff.mp (by simp [hWords])
  have hSplit :
      wordsOf text =
        (front ++ named :: holds) ++
          hold :: (middle ++ mark :: last) := by
    simp [hWords]
  have hLetters : spelled svara.name.toList = [named.text] := by
    rw [hName, Word.text, String.toList_ofList]
    exact hNamedIn.spelled_letters
  have hColons : spelled [':', ' ', ':'] = [":", ":"] := by
    decide
  have hTexts :
      (wordsOf (repeated svara hold mark)).map Word.text =
        (front ++
          named ::
            (holds ++
              named :: (middle ++ mark :: mark :: last))).map
          Word.text := by
    rw [repeated, Word.map_text_respelled hSplit, hLetters,
      hColons]
    simp [hColonText]
  have hSame :=
    ignoresPlaces_ofWords settings registry _ _ hTexts
  rw [ofText_eq_ofWords]
  rcases unplaced_eq_iff.mp hSame with
    ⟨other, same, hOther, hWhole, rfl⟩ |
      ⟨_, _, _, hFault, _⟩
  · exact hOther.trans (hWhole.symm.trans hRepeated)
  · exact absurd (hRepeated.symm.trans hFault) (by simp)

/- A svara with two holds, of which the second one is replaced
by its name. -/
def heldPhrase : String :=
  "\x7b sa , , pa \x7d \x7b : :/ \x7d"

def repeatedPhrase : String :=
  "\x7b sa , sa pa \x7d \x7b : : :/ \x7d"

def heldSvara : Svara :=
  ⟨"sa", 3, ⟨1, 3⟩⟩

def heldLine : Line where
  svaras := [heldSvara, ⟨"pa", 1, ⟨1, 10⟩⟩]
  gamakas := [⟨":", ⟨1, 17⟩⟩, ⟨":/", ⟨1, 19⟩⟩]
  position := ⟨1, 1⟩

def heldName : Word where
  before := "\x7b ".toList
  letters := ['s', 'a']
  behind := " , , pa \x7d \x7b : :/ \x7d".toList

def secondHold : Word where
  before := "\x7b sa , ".toList
  letters := [',']
  behind := " pa \x7d \x7b : :/ \x7d".toList

def heldMark : Word where
  before := "\x7b sa , , pa \x7d \x7b ".toList
  letters := [':']
  behind := " :/ \x7d".toList

theorem repeats_heldPhrase :
    repeated heldSvara secondHold heldMark = repeatedPhrase ∧
      ∃ rendition,
        ofText Settings.standard
              (Registry.builtin : Registry Float) heldPhrase =
            .ok rendition ∧
          ofText Settings.standard
              (Registry.builtin : Registry Float)
              repeatedPhrase =
            .ok
              ⟨rendition.events,
                rendition.segmentCount + 1⟩ := by
  have hRepeated :
      repeated heldSvara secondHold heldMark =
        repeatedPhrase := by
    decide +kernel
  have hFlat :
      (Registry.builtin : Registry Float).get? ":" =
        some Registry.flat := rfl
  have hOk :
      (ofText Settings.standard
        (Registry.builtin : Registry Float)
          heldPhrase).isOk = true := by
    decide +kernel
  rcases exists_eq_ok_of_isOk hOk with ⟨rendition, hText⟩
  have hSong : Song.ofText heldPhrase = .ok ⟨[heldLine]⟩ := by
    decide +kernel
  have hSvara : heldLine.svaras[0]? = some heldSvara := rfl
  have hHeld : heldSvara.IsHeldBy heldPhrase secondHold :=
    ⟨(wordsOf heldPhrase).take 1,
      heldName, ((wordsOf heldPhrase).drop 2).take 1,
      (wordsOf heldPhrase).drop 4, by decide +kernel⟩
  refine ⟨hRepeated, rendition, hText, ?_⟩
  rw [← hRepeated]
  exact repeats_of_ofText hFlat hText hSong (by simp) hSvara
    rfl rfl rfl hHeld (by decide +kernel) (by decide +kernel)
      (by decide)

end Rendition

end Carnatic
