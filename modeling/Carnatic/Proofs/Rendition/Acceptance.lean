import Carnatic.Proofs.Song.Breaks
import Carnatic.Proofs.Song.Music
import Carnatic.Proofs.Token.Scan

/-
  Which texts are rendered.

  A text is rendered when all its words are tokens, the tokens
  write a song, and the song can be played. Otherwise there is
  one error. It is about the first fault of the earliest stage
  that finds any, wherever the faults of later stages stand.

  Main declarations:
    * `Song.IsOf`
    * `Rendition.IsRenderable`
    * `Rendition.FirstFault`
    * `Rendition.ReportsFirstFault`
    * `Rendition.reportsFirstFault`
-/

------------------------------------------------------------
-- Songs Of Texts
------------------------------------------------------------

namespace Carnatic

/- A song that a text writes: the tokens of the text write it,
and every line has as many svaras as gamakas. -/
def Song.IsOf
    (song : Song)
    (text : String) : Prop :=
  ∃ tokens, Token.AreWordsOf tokens text ∧
    song.IsBalanced ∧ song.WrittenBy tokens

theorem Song.isOf_iff
    {song : Song}
    {text : String} :
    song.IsOf text ↔ Song.ofText text = .ok song := by
  simp only [Song.IsOf, ← Token.ofText_eq_ok_iff,
    ← Song.ofTokens_eq_ok_iff, Song.ofText]
  cases Token.ofText text <;> simp

namespace Rendition

variable {R : Type} [Scalar R]

/-
  A text that is rendered: its words have classes, it writes a
  song, and the song can be played.
-/
structure IsRenderable
    (settings : Settings R)
    (registry : Registry R)
    (text : String) : Prop where
  words : ∀ word ∈ wordsOf text, word.HasKind
  song :
    ∃ song : Song,
      song.IsOf text ∧ song.IsPlayable settings registry

/-
  The error of a text that is not rendered. It is about the
  first word without a class. Where all words have classes, it
  is about the place where the tokens break the grammar. Where
  they write a song, it is about the song.
-/
inductive FirstFault
    (settings : Settings R)
    (registry : Registry R)
    (text : String) : SongError → Prop
| word
    {word : Word}
    (hWord :
      IsFirstWithout Word.HasKind (wordsOf text) word) :
    FirstFault settings registry text
      ⟨.invalidWord word.text, word.position⟩
| grammar
    {tokens : List Token}
    {error : SongError}
    (hTokens : Token.AreWordsOf tokens text)
    (hBreaks : Song.Breaks tokens error) :
    FirstFault settings registry text error
| music
    {song : Song}
    {error : SongError}
    (hSong : song.IsOf text)
    (hFails : song.Fails settings registry error) :
    FirstFault settings registry text error

------------------------------------------------------------
-- Reading And Rendering
------------------------------------------------------------

variable {settings : Settings R}
variable {registry : Registry R}
variable {text : String}

theorem ofText_of_invalidWord
    {error : SongError}
    (hTokens : Token.ofText text = .error error) :
    ofText settings registry text = .error error := by
  simp only [ofText, Segment.ofText, Song.ofText, hTokens]

theorem ofText_of_breaks
    {tokens : List Token}
    {error : SongError}
    (hTokens : Token.ofText text = .ok tokens)
    (hSong : Song.ofTokens tokens = .error error) :
    ofText settings registry text = .error error := by
  simp only [ofText, Segment.ofText, Song.ofText, hTokens,
    hSong]

theorem ofText_of_song
    {tokens : List Token}
    {song : Song}
    (hTokens : Token.ofText text = .ok tokens)
    (hSong : Song.ofTokens tokens = .ok song) :
    ofText settings registry text =
      ofSong settings registry song := by
  simp only [ofText, Segment.ofText, Song.ofText, hTokens,
    hSong]
  rfl

/- The error of a text is its first fault. -/
theorem ofText_eq_error_iff {error : SongError} :
    ofText settings registry text = .error error ↔
      FirstFault settings registry text error := by
  constructor
  · intro hError
    cases hTokens : Token.ofText text with
    | error other =>
        rw [ofText_of_invalidWord hTokens,
          Except.error.injEq] at hError
        rcases Token.ofText_eq_error_iff.mp hTokens with
          ⟨word, hWord, rfl⟩
        exact hError ▸ .word hWord
    | ok tokens =>
        have hWords := Token.ofText_eq_ok_iff.mp hTokens
        cases hSong : Song.ofTokens tokens with
        | error other =>
            rw [ofText_of_breaks hTokens hSong,
              Except.error.injEq] at hError
            exact hError ▸ .grammar hWords
              (Song.ofTokens_eq_error_iff.mp hSong)
        | ok song =>
            rw [ofText_of_song hTokens hSong] at hError
            have hWritten := Song.ofTokens_eq_ok_iff.mp hSong
            exact .music ⟨tokens, hWords, hWritten⟩
              ((ofSong_eq_error_iff hWritten.1).mp hError)
  · intro hFault
    cases hFault with
    | word hWord =>
        exact ofText_of_invalidWord
          (Token.ofText_eq_error_iff.mpr ⟨_, hWord, rfl⟩)
    | grammar hWords hBreaks =>
        exact ofText_of_breaks
          (Token.ofText_eq_ok_iff.mpr hWords)
          (Song.ofTokens_eq_error_iff.mpr hBreaks)
    | music hSong hFails =>
        rcases hSong with ⟨tokens, hWords, hWritten⟩
        rw [ofText_of_song
          (Token.ofText_eq_ok_iff.mpr hWords)
          (Song.ofTokens_eq_ok_iff.mpr hWritten)]
        exact (ofSong_eq_error_iff hWritten.1).mpr hFails

/- A text is rendered exactly when it writes a song that can
be played. -/
theorem exists_ofText_iff :
    (∃ rendition,
        ofText settings registry text = .ok rendition) ↔
      IsRenderable settings registry text := by
  constructor
  · rintro ⟨rendition, hOk⟩
    cases hTokens : Token.ofText text with
    | error error =>
        rw [ofText_of_invalidWord hTokens] at hOk
        simp at hOk
    | ok tokens =>
        have hWords := Token.ofText_eq_ok_iff.mp hTokens
        cases hSong : Song.ofTokens tokens with
        | error error =>
            rw [ofText_of_breaks hTokens hSong] at hOk
            simp at hOk
        | ok song =>
            rw [ofText_of_song hTokens hSong] at hOk
            have hWritten := Song.ofTokens_eq_ok_iff.mp hSong
            exact ⟨Token.exists_areWordsOf_iff.mp
                ⟨tokens, hWords⟩,
              song, ⟨tokens, hWords, hWritten⟩,
              (exists_ofSong_iff hWritten.1).mp
                ⟨rendition, hOk⟩⟩
  · rintro ⟨_, song, ⟨tokens, hWords, hWritten⟩, hPlayable⟩
    rw [ofText_of_song
      (Token.ofText_eq_ok_iff.mpr hWords)
      (Song.ofTokens_eq_ok_iff.mpr hWritten)]
    exact (exists_ofSong_iff hWritten.1).mpr hPlayable

------------------------------------------------------------
-- Stages Of Faults
------------------------------------------------------------

/- Words are at fault when some word has no class. -/
theorem stage_words_iff :
    (∃ error,
        ofText settings registry text = .error error ∧
          error.stage = .words) ↔
      ∃ word ∈ wordsOf text, ¬ word.HasKind := by
  simp only [ofText_eq_error_iff]
  constructor
  · rintro ⟨error, hFault, hStage⟩
    cases hFault with
    | word hWord => simpa using hWord.not_forall
    | grammar _ hBreaks =>
        rw [hBreaks.stage_eq] at hStage
        simp at hStage
    | music _ hFails =>
        rw [hFails.stage_eq] at hStage
        simp at hStage
  · intro hSome
    have hNotAll :
        ¬ ∀ word ∈ wordsOf text, word.HasKind := by
      simpa using hSome
    rcases exists_isFirstWithout hNotAll with ⟨word, hWord⟩
    exact ⟨_, .word hWord, rfl⟩

/- The grammar is at fault when all words have classes and
write no song. -/
theorem stage_grammar_iff :
    (∃ error,
        ofText settings registry text = .error error ∧
          error.stage = .grammar) ↔
      (∀ word ∈ wordsOf text, word.HasKind) ∧
        ¬ ∃ song : Song, song.IsOf text := by
  simp only [ofText_eq_error_iff]
  constructor
  · rintro ⟨error, hFault, hStage⟩
    cases hFault with
    | word => simp [SongError.stage,
        SongError.Cause.stage] at hStage
    | @grammar tokens error hWords hBreaks =>
        refine ⟨Token.exists_areWordsOf_iff.mp ⟨_, hWords⟩, ?_⟩
        rintro ⟨song, hSong⟩
        have hTokens := Token.ofText_eq_ok_iff.mpr hWords
        have hBroken :=
          Song.ofTokens_eq_error_iff.mpr hBreaks
        rw [Song.isOf_iff, Song.ofText] at hSong
        simp [hTokens, hBroken] at hSong
    | music _ hFails =>
        rw [hFails.stage_eq] at hStage
        simp at hStage
  · rintro ⟨hWords, hNone⟩
    rcases Token.exists_areWordsOf_iff.mpr hWords with
      ⟨tokens, hTokens⟩
    cases hSong : Song.ofTokens tokens with
    | error error =>
        have hBreaks := Song.ofTokens_eq_error_iff.mp hSong
        exact ⟨error, .grammar hTokens hBreaks,
          hBreaks.stage_eq⟩
    | ok song =>
        exact absurd
          ⟨song, tokens, hTokens,
            Song.ofTokens_eq_ok_iff.mp hSong⟩ hNone

/- The music is at fault when the text writes a song that
cannot be played. -/
theorem stage_music_iff :
    (∃ error,
        ofText settings registry text = .error error ∧
          error.stage = .music) ↔
      ∃ song : Song,
        song.IsOf text ∧
          ¬ song.IsPlayable settings registry := by
  simp only [ofText_eq_error_iff]
  constructor
  · rintro ⟨error, hFault, hStage⟩
    cases hFault with
    | word => simp [SongError.stage,
        SongError.Cause.stage] at hStage
    | grammar _ hBreaks =>
        rw [hBreaks.stage_eq] at hStage
        simp at hStage
    | music hSong hFails =>
        refine ⟨_, hSong, ?_⟩
        rw [Song.isPlayable_iff_not_fails, not_not]
        exact ⟨error, hFails⟩
  · rintro ⟨song, hSong, hNot⟩
    rw [Song.isPlayable_iff_not_fails, not_not] at hNot
    rcases hNot with ⟨error, hFails⟩
    exact ⟨error, .music hSong hFails, hFails.stage_eq⟩

/-
  A text is rendered exactly when its words have classes and
  write a song that can be played. Any other text has the
  error of its first fault, and the stage of this error is
  the first one that is at fault.
-/
structure ReportsFirstFault
    (settings : Settings R)
    (registry : Registry R)
    (text : String) : Prop where
  accepts :
    (∃ rendition,
        ofText settings registry text = .ok rendition) ↔
      IsRenderable settings registry text
  rejects :
    ∀ error : SongError,
      ofText settings registry text = .error error ↔
        FirstFault settings registry text error
  words :
    (∃ error,
        ofText settings registry text = .error error ∧
          error.stage = .words) ↔
      ∃ word ∈ wordsOf text, ¬ word.HasKind
  grammar :
    (∃ error,
        ofText settings registry text = .error error ∧
          error.stage = .grammar) ↔
      (∀ word ∈ wordsOf text, word.HasKind) ∧
        ¬ ∃ song : Song, song.IsOf text
  music :
    (∃ error,
        ofText settings registry text = .error error ∧
          error.stage = .music) ↔
      ∃ song : Song,
        song.IsOf text ∧
          ¬ song.IsPlayable settings registry

/- Every text is rendered or has the error of its first
fault. -/
theorem reportsFirstFault
    (settings : Settings R)
    (registry : Registry R)
    (text : String) :
    ReportsFirstFault settings registry text where
  accepts := exists_ofText_iff
  rejects := by
    intro error
    exact ofText_eq_error_iff
  words := stage_words_iff
  grammar := stage_grammar_iff
  music := stage_music_iff

end Rendition

end Carnatic
