import Carnatic.Proofs.Rendition.Acceptance
import Carnatic.Proofs.Song.Tokens
import Carnatic.Proofs.Text.Places

/-
  The words that errors point at.

  Places go from words to tokens, from these to svaras and
  gamakas, and from svaras to segments. Whichever stage finds
  an error, its place is that of one word of the text, and
  this is the word that the error is about: the one that its
  text names, or the last one where the text ends too early,
  or the brace that opens a line of unequal lists. A repeated
  pitch is as playable as the one it repeats, so that a note
  without a key is always that of a svara with a name.

  Main declarations:
    * `Word.OpensUnequalLine`
    * `SongError.IsAbout` and `SongError.PointsAt`
    * `Song.Breaks.exists_isAbout`
    * `Svara.isContinuation_eq_false_of_first_out`
    * `Song.Fails.exists_isAbout`
    * `Rendition.exists_pointsAt_of_ofText`
-/

------------------------------------------------------------
-- Pointing
------------------------------------------------------------

namespace Carnatic

/-
  A word that opens the first list of a line whose lists have
  unequal lengths. The words in front of it write the lines of
  a song, and no continuation is counted as a svara behind
  another one.
-/
def Word.OpensUnequalLine
    (word : Word)
    (text : String)
    (svaras gamakas : Nat) : Prop :=
  ∃ (song : Song) (line : Line)
      (front own behind : List Token),
    Token.AreWordsOf (front ++ own ++ behind) text ∧
      song.IsBalanced ∧
      song.WrittenBy front ∧
      line.WrittenBy own ∧
      Svara.NoneContinues line.svaras.tail ∧
      line.svaras.length = svaras ∧
      line.gamakas.length = gamakas ∧
      svaras ≠ gamakas ∧
      (wordsOf text)[front.length]? = some word ∧
      word.text = "\x7b"

namespace SongError

/- The word of a text that an error is about, by its cause. -/
def IsAbout
    (error : SongError)
    (text : String)
    (word : Word) : Prop :=
  match error.cause with
  | .invalidWord _ =>
      error.message = "invalid token: " ++ word.text
  | .unexpected expected (some _) =>
      error.message =
        "expected " ++ expected.describe ++ ", found " ++
          ("'" ++ word.text ++ "'")
  | .unexpected expected none =>
      error.message =
          "expected " ++ expected.describe ++ ", found " ++
            "end of input" ∧
        (wordsOf text).getLast? = some word
  | .unequalCounts svaras gamakas =>
      word.OpensUnequalLine text svaras gamakas
  | .unknownSvara _ =>
      error.message = "not a svara: " ++ word.text
  | .leadingContinuation =>
      word.text = "," ∧ ',' ∉ word.before
  | .unknownGamaka _ =>
      error.message = "not a gamaka: " ++ word.text
  | .noteOutOfRange _ =>
      TokenKind.svaraName.Admits word.letters ∧
        word.text ≠ ","

/- An error points at a word of a text: the word starts at the
error's place, no other one does, and the error is about
it. -/
structure PointsAt
    (error : SongError)
    (text : String)
    (word : Word) : Prop where
  isIn : word.IsIn text.toList
  position_eq : word.position = error.position
  unique :
    ∀ other : Word,
      other.IsIn text.toList →
        other.position = error.position →
          other = word
  isAbout : error.IsAbout text word

theorem pointsAt_of_isAbout
    {error : SongError}
    {text : String}
    {word : Word}
    (hWord : word ∈ wordsOf text)
    (hPosition : word.position = error.position)
    (hAbout : error.IsAbout text word) :
    error.PointsAt text word := by
  have hIn := mem_wordsOf_iff.mp hWord
  refine ⟨hIn, hPosition, ?_, hAbout⟩
  intro other hOther hSame
  exact hOther.eq_of_position hIn
    (hSame.trans hPosition.symm)

end SongError

------------------------------------------------------------
-- Grammar
------------------------------------------------------------

variable {text : String}
variable {error : SongError}

/- Where tokens break the grammar, the error is about the word
that is found, or the last one, or the brace of a line. -/
theorem Song.Breaks.exists_isAbout
    {tokens : List Token}
    (hTokens : Token.AreWordsOf tokens text)
    (hBreaks : Song.Breaks tokens error) :
    ∃ word ∈ wordsOf text,
      word.position = error.position ∧
        error.IsAbout text word := by
  rcases hBreaks with
    ⟨song, front, behind, hBalanced, hWritten, rfl, hLine⟩
  cases hLine with
  | @token begun missed found hMissed hKind hFound rest =>
      have hMember :
          found ∈ front ++ (begun ++ found :: rest) := by
        simp
      rcases hTokens.exists_word_of_mem hMember with
        ⟨word, hWord, _, hText, hPosition⟩
      refine ⟨word, hWord, hPosition.symm, ?_⟩
      exact congrArg
        (fun text =>
          "expected " ++ missed.kind.describe ++ ", found " ++
            ("'" ++ text ++ "'"))
        hText
  | @ending begun last missed hMissed hKind =>
      rw [← List.append_assoc] at hTokens
      rcases hTokens.exists_split with
        ⟨words, word, later, hWords, _, ⟨_, _, hPosition⟩,
          hLater⟩
      cases hLater
      refine ⟨word, by simp [hWords], hPosition.symm, rfl, ?_⟩
      rw [hWords, List.getLast?_concat]
  | @counts line own hOwn hHolds hLengths rest =>
      rw [← List.append_assoc] at hTokens
      rcases Line.exists_braces_of_writtenBy hOwn with
        ⟨brace, inner, closing, rfl, hKind, hPlace, _⟩
      have hSplit := hTokens
      simp only [List.append_assoc,
        List.cons_append] at hSplit
      rcases hSplit.exists_split with
        ⟨words, word, _, hWords, hFront, hWord, _⟩
      have hLetters : word.letters = ['\x7b'] :=
        TokenKind.letters_of_listStart (hKind ▸ hWord.1)
      refine ⟨word, by simp [hWords],
        hWord.2.2.symm.trans hPlace, song, line, front, _,
        rest, hTokens, hBalanced, hWritten, hOwn, hHolds, rfl,
        rfl, hLengths, ?_, ?_⟩
      · rw [hWords, ← hFront.length_eq]
        simp
      · rw [Word.text, hLetters]

------------------------------------------------------------
-- Music
------------------------------------------------------------

variable {R : Type} [Scalar R]
variable {settings : Settings R}
variable {registry : Registry R}

/- The first pitch without a note is no repeated one: what is
repeated has a note. -/
omit [Scalar R] in
theorem Svara.isContinuation_eq_false_of_first_out
    {svaras : List Svara}
    {index : Nat}
    {svara : Svara}
    {offset : Int}
    (hLeads : Leads svaras)
    (hSvara : svaras[index]? = some svara)
    (hEarlier :
      ∀ earlier < index,
        EndOnNote settings (svaras.take (earlier + 1)))
    (hEnd : EndOn (svaras.take (index + 1)) offset)
    (hNote : ¬ settings.HasNote offset) :
    svara.isContinuation = false := by
  cases index with
  | zero =>
      rw [← List.head?_eq_getElem?] at hSvara
      exact hLeads svara hSvara
  | succ index =>
      by_contra hHold
      have hName : svara.name = continuation := by
        simpa [isContinuation] using hHold
      rcases hEarlier index (Nat.lt_succ_self index) with
        ⟨reached, hReached, hHas⟩
      have hTake :
          svaras.take (index + 1 + 1) =
            svaras.take (index + 1) ++ [svara] := by
        rw [List.take_add_one, hSvara]
        rfl
      rw [hTake] at hEnd
      have hRepeats :=
        endOn_concat_continuation hReached hName
      exact hNote (hEnd.unique hRepeats ▸ hHas)

/- A leading continuation is the first of all commas, since
only braces stand in front of it. -/
theorem Song.exists_comma_of_leading
    {song : Song}
    {tokens : List Token}
    (hTokens : Token.AreWordsOf tokens text)
    (hBalanced : song.IsBalanced)
    (hWritten : song.WrittenBy tokens)
    {first : Svara}
    {rest : List Svara}
    (hSvaras : song.svaras = first :: rest)
    (hFirst : first.isContinuation = true) :
    ∃ word ∈ wordsOf text,
      word.position = first.position ∧
        word.text = "," ∧
        ',' ∉ word.before := by
  rcases Song.exists_braces_of_svaras hBalanced hWritten
      hSvaras with
    ⟨front, behind, rfl, hBraces⟩
  rcases hTokens.exists_split with
    ⟨words, word, later, hWords, hFront,
      ⟨_, hText, hPosition⟩, _⟩
  refine ⟨word, by simp [hWords], hPosition.symm, ?_, ?_⟩
  · exact hText.symm.trans (of_decide_eq_true hFirst)
  · intro hComma
    rcases Word.exists_earlier_of_mem_before hWords hComma
        (by decide) with
      ⟨earlier, hEarlier, hLetter⟩
    rcases exists_of_forall₂_of_mem hFront hEarlier with
      ⟨token, hToken, hBrace⟩
    rcases hBrace.letters_of_isBrace (hBraces token hToken)
      with hLetters | hLetters
    · simp [hLetters] at hLetter
    · simp [hLetters] at hLetter

/- Where a song cannot be played, the error is about the word
of a svara or a gamaka. -/
theorem Song.Fails.exists_isAbout
    {song : Song}
    (hSong : song.IsOf text)
    (hFails : song.Fails settings registry error) :
    ∃ word ∈ wordsOf text,
      word.position = error.position ∧
        error.IsAbout text word := by
  rcases hSong with ⟨tokens, hTokens, hBalanced, hWritten⟩
  cases hFails with
  | @svara svara hSvara =>
      rcases hTokens.exists_word_of_mem
          (Song.token_mem_of_mem_svaras hWritten
            hSvara.mem) with
        ⟨word, hWord, _, hText, hPosition⟩
      refine ⟨word, hWord, hPosition.symm, ?_⟩
      exact congrArg ("not a svara: " ++ ·) hText
  | continuation _ hSvaras hFirst =>
      exact Song.exists_comma_of_leading hTokens hBalanced
        hWritten hSvaras hFirst
  | @gamaka gamaka _ _ hGamaka =>
      rcases hTokens.exists_word_of_mem
          (Song.token_mem_of_mem_gamakas hWritten
            hGamaka.mem) with
        ⟨word, hWord, _, hText, hPosition⟩
      refine ⟨word, hWord, hPosition.symm, ?_⟩
      exact congrArg ("not a gamaka: " ++ ·) hText
  | @note index svara offset _ hLeads _ hSvara hEarlier hEnd
      hNote =>
      rcases hTokens.exists_word_of_mem
          (Song.token_mem_of_mem_svaras hWritten
            (List.mem_of_getElem? hSvara)) with
        ⟨word, hWord, hAdmits, hText, hPosition⟩
      have hNamed :=
        Svara.isContinuation_eq_false_of_first_out hLeads
          hSvara hEarlier hEnd hNote
      refine ⟨word, hWord, hPosition.symm, hAdmits, ?_⟩
      exact hText ▸ of_decide_eq_false hNamed

------------------------------------------------------------
-- Whole Texts
------------------------------------------------------------

namespace Rendition

/- Every error of a text points at one of its words, the one
that it is about. -/
theorem exists_pointsAt_of_ofText
    (hText : ofText settings registry text = .error error) :
    ∃ word, error.PointsAt text word := by
  have hAbout :
      ∃ word ∈ wordsOf text,
        word.position = error.position ∧
          error.IsAbout text word := by
    cases ofText_eq_error_iff.mp hText with
    | @word word hWord => exact ⟨word, hWord.mem, rfl, rfl⟩
    | grammar hTokens hBreaks =>
        exact hBreaks.exists_isAbout hTokens
    | music hSong hFails => exact hFails.exists_isAbout hSong
  rcases hAbout with ⟨word, hWord, hPosition, hAbout⟩
  exact ⟨word,
    SongError.pointsAt_of_isAbout hWord hPosition hAbout⟩

/- A line without svaras, and behind it a continuation that
has nothing to continue. -/
def upbeatText : String :=
  "\x7b \x7d \x7b \x7d\n\x7b , \x7d \x7b : \x7d"

theorem exists_pointsAt_upbeatText :
    ofText Performance.brisk Registry.builtin upbeatText =
        .error ⟨.leadingContinuation, ⟨2, 3⟩⟩ ∧
      ∃ word,
        SongError.PointsAt ⟨.leadingContinuation, ⟨2, 3⟩⟩
          upbeatText word := by
  have hText :
      ofText Performance.brisk Registry.builtin upbeatText =
        .error ⟨.leadingContinuation, ⟨2, 3⟩⟩ := by
    decide +kernel
  exact ⟨hText, exists_pointsAt_of_ofText hText⟩

end Rendition

end Carnatic
