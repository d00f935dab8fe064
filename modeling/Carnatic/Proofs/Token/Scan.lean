import Carnatic.Proofs.Reading.First
import Carnatic.Proofs.Text.Words
import Carnatic.Token.Scanner

/-
  Scanning the words of a text.

  A scanner answers the words of its text one by one. Each
  answer reads the text up to the word and the blank behind
  it, and no further. A word without a class is the last one
  that is answered.

  Main declarations:
    * `TokenKind.Admits`
    * `Word.HasKind` and `Word.token`
    * `Scanner.Awaits`
    * `Scanner.next_of_awaits_cons`
    * `Scanner.after` and `Scanner.answer`
    * `Token.exists_append_of_ofText`
    * `Token.AreWordsOf` and `Token.ofText_eq_ok_iff`
    * `Token.ofText_eq_error_iff`
    * `Scanner.ScansWords`
    * `Scanner.scansWords`
-/

------------------------------------------------------------
-- Classes Of Words
------------------------------------------------------------

namespace Carnatic

/- The letters that svara names lead with. -/
def IsLetter (c : Char) : Prop :=
  ('A' ≤ c ∧ c ≤ 'Z') ∨ ('a' ≤ c ∧ c ≤ 'z')

/- The words of each class. -/
inductive TokenKind.Admits : TokenKind → List Char → Prop
| listStart : Admits .listStart ['\x7b']
| listEnd : Admits .listEnd ['\x7d']
| continuation : Admits .svaraName [',']
| svaraName
    {c : Char}
    (hLetter : IsLetter c)
    (rest : List Char) :
    Admits .svaraName (c :: rest)
| gamakaName
    (rest : List Char) :
    Admits .gamakaName (':' :: rest)

theorem isAlpha_iff (c : Char) :
    c.isAlpha = true ↔ IsLetter c := by
  have hAlpha :
      c.isAlpha =
        (decide ('A'.val ≤ c.val ∧ c.val ≤ 'Z'.val) ||
          (decide ('a'.val ≤ c.val) &&
            decide (c.val ≤ 'z'.val))) := rfl
  rw [hAlpha, Bool.or_eq_true, Bool.and_eq_true,
    decide_eq_true_eq, decide_eq_true_eq, decide_eq_true_eq]
  rfl

theorem ofList_eq_iff
    {letters : List Char}
    {word : String} :
    String.ofList letters = word ↔ letters = word.toList := by
  constructor
  · rintro rfl
    simp
  · rintro rfl
    simp

namespace TokenKind

/- The class of a word by its characters. -/
theorem ofWord?_ofList (letters : List Char) :
    ofWord? (String.ofList letters) =
      if letters = ['\x7b'] then
        some .listStart
      else if letters = ['\x7d'] then
        some .listEnd
      else if letters = [','] then
        some .svaraName
      else
        match letters with
        | [] => none
        | c :: _ =>
            if c.isAlpha then some .svaraName
            else if c = ':' then some .gamakaName
            else none := by
  simp only [ofWord?, ofList_eq_iff, String.toList_ofList]
  rfl

/- The class that a word is given is the one that admits its
characters. -/
theorem ofWord?_eq_some_iff
    {letters : List Char}
    {kind : TokenKind} :
    ofWord? (String.ofList letters) = some kind ↔
      kind.Admits letters := by
  rw [ofWord?_ofList]
  constructor
  · intro hKind
    split_ifs at hKind with hStart hEnd hHold
    · cases hKind
      exact hStart ▸ .listStart
    · cases hKind
      exact hEnd ▸ .listEnd
    · cases hKind
      exact hHold ▸ .continuation
    · cases letters with
      | nil => simp at hKind
      | cons c rest =>
          simp only at hKind
          split_ifs at hKind with hLetter hColon
          · cases hKind
            exact .svaraName ((isAlpha_iff c).mp hLetter) rest
          · cases hKind
            exact hColon ▸ .gamakaName rest
  · intro hAdmits
    cases hAdmits with
    | listStart => rfl
    | listEnd => rfl
    | continuation => rfl
    | @svaraName c hLetter rest =>
        have hAlpha := (isAlpha_iff c).mpr hLetter
        have hStart : c ≠ '\x7b' := by
          rintro rfl
          simp at hAlpha
        have hEnd : c ≠ '\x7d' := by
          rintro rfl
          simp at hAlpha
        simp [hAlpha, hStart, hEnd]
    | gamakaName rest => simp

/- A word has one class at most. -/
theorem Admits.unique
    {letters : List Char}
    {first second : TokenKind}
    (hFirst : first.Admits letters)
    (hSecond : second.Admits letters) :
    first = second := by
  rw [← ofWord?_eq_some_iff] at hFirst hSecond
  exact Option.some.inj (hFirst.symm.trans hSecond)

end TokenKind

namespace Word

/- A word with a class. -/
def HasKind (word : Word) : Prop :=
  ∃ kind : TokenKind, kind.Admits word.letters

/- The token that a word is, or the error about it. -/
def token (word : Word) : Except SongError Token :=
  Scanner.classify word.text word.position

theorem token_of_admits
    {word : Word}
    {kind : TokenKind}
    (hKind : kind.Admits word.letters) :
    word.token = .ok ⟨kind, word.text, word.position⟩ := by
  have hSome := TokenKind.ofWord?_eq_some_iff.mpr hKind
  simp only [token, Scanner.classify, text, hSome]

theorem token_of_not_hasKind
    {word : Word}
    (hNone : ¬ word.HasKind) :
    word.token =
      .error ⟨.invalidWord word.text, word.position⟩ := by
  cases hKind : TokenKind.ofWord? word.text with
  | none => simp only [token, Scanner.classify, hKind]
  | some kind =>
      exact absurd
        ⟨kind, TokenKind.ofWord?_eq_some_iff.mp hKind⟩ hNone

/- A word is a token when it has a class. -/
theorem token_eq_ok_iff
    {word : Word}
    {token : Token} :
    word.token = .ok token ↔
      token.kind.Admits word.letters ∧
        token.word = word.text ∧
        token.position = word.position := by
  by_cases hSome : word.HasKind
  · rcases hSome with ⟨kind, hKind⟩
    rw [token_of_admits hKind, Except.ok.injEq]
    constructor
    · rintro rfl
      exact ⟨hKind, rfl, rfl⟩
    · rcases token with ⟨other, text, position⟩
      rintro ⟨hOther, rfl, rfl⟩
      rw [hKind.unique hOther]
  · rw [token_of_not_hasKind hSome]
    simp only [reduceCtorEq, false_iff]
    rintro ⟨hKind, _⟩
    exact hSome ⟨_, hKind⟩

/- Otherwise it is an error. -/
theorem token_eq_error_iff
    {word : Word}
    {error : SongError} :
    word.token = .error error ↔
      ¬ word.HasKind ∧
        error = ⟨.invalidWord word.text, word.position⟩ := by
  by_cases hSome : word.HasKind
  · rcases hSome with ⟨kind, hKind⟩
    rw [token_of_admits hKind]
    simp only [reduceCtorEq, false_iff, not_and]
    intro hNone
    exact absurd ⟨kind, hKind⟩ hNone
  · rw [token_of_not_hasKind hSome, Except.error.injEq]
    constructor
    · rintro rfl
      exact ⟨hSome, rfl⟩
    · rintro ⟨_, rfl⟩
      rfl

end Word

------------------------------------------------------------
-- Scanners And The Words They Await
------------------------------------------------------------

namespace Scanner

/-
  The words that a scanner has yet to answer. It has ended, or
  it stands behind a settled front whose words are done.
-/
def Awaits
    (scanner : Scanner)
    (words : List Word) : Prop :=
  (scanner.finished = true ∧ words = []) ∨
    scanner.finished = false ∧
      ∃ front,
        IsSettled front ∧
          scanner.position = Position.counted front ∧
          words = wordsBehind front scanner.rest

theorem awaits_ofText (text : String) :
    (ofText text).Awaits (wordsOf text) := by
  refine .inr ⟨rfl, [], ?_, rfl, rfl⟩
  simp [IsSettled]

------------------------------------------------------------
-- Skipping Blanks
------------------------------------------------------------

theorem skipBlanks_eq
    (position : Position)
    (text : List Char) :
    skipBlanks position text =
      (position.after (text.takeWhile Text.isBlank),
        text.dropWhile Text.isBlank) := by
  induction text generalizing position with
  | nil => rfl
  | cons c rest ih =>
      by_cases hBlank : Text.isBlank c
      · simp [skipBlanks, hBlank, ih]
      · simp [skipBlanks, hBlank]

/- Behind the blanks that follow a settled front a word can
begin. -/
theorem isSettled_append_blanks
    {front : List Char}
    (hSettled : IsSettled front)
    (rest : List Char) :
    IsSettled (front ++ rest.takeWhile Text.isBlank) := by
  intro last hLast
  rw [List.getLast?_append] at hLast
  cases hBlanks :
      (rest.takeWhile Text.isBlank).getLast? with
  | none =>
      rw [hBlanks, Option.none_or] at hLast
      exact hSettled last hLast
  | some blank =>
      rw [hBlanks, Option.some_or,
        Option.mem_some_iff] at hLast
      subst hLast
      exact List.mem_takeWhile_imp
        (List.mem_of_getLast? hBlanks)

/- Where only blanks are left there are no words. -/
theorem wordsBehind_eq_nil
    {rest : List Char}
    (front : List Char)
    (hRest : rest.dropWhile Text.isBlank = []) :
    wordsBehind front rest = [] := by
  have hBlanks :
      wordsBehind front (rest ++ []) =
        wordsBehind (front ++ rest) [] :=
    wordsBehind_append_blanks
      (List.dropWhile_eq_nil_iff.mp hRest)
  rwa [List.append_nil] at hBlanks

/- The first word behind a settled front begins behind the
blanks there. -/
theorem wordsBehind_eq_cons
    {front rest behind : List Char}
    {c : Char}
    (hSettled : IsSettled front)
    (hRest : rest.dropWhile Text.isBlank = c :: behind) :
    Text.isBlank c = false ∧
      wordsBehind front rest =
        wordAt (front ++ rest.takeWhile Text.isBlank)
            (c :: behind) ::
          wordsBehind
            (front ++ rest.takeWhile Text.isBlank ++
              (wordAt (front ++ rest.takeWhile Text.isBlank)
                (c :: behind)).letters)
            (wordAt (front ++ rest.takeWhile Text.isBlank)
              (c :: behind)).behind := by
  have hBlanks :
      ∀ c ∈ rest.takeWhile Text.isBlank,
        Text.isBlank c = true := by
    intro c hBlank
    exact List.mem_takeWhile_imp hBlank
  have hLetter : Text.isBlank c = false := by
    have hHead :=
      List.head?_dropWhile_not Text.isBlank rest
    simpa [hRest] using hHead
  refine ⟨hLetter, ?_⟩
  rw [← wordsBehind_of_begins
      (isSettled_append_blanks hSettled rest) hLetter,
    ← wordsBehind_append_blanks hBlanks, ← hRest,
    List.takeWhile_append_dropWhile]

------------------------------------------------------------
-- One Answer
------------------------------------------------------------

/- A word is classified at the place of its first
character. -/
theorem classify_wordAt
    (front rest : List Char)
    {c : Char}
    (hLetter : Text.isBlank c = false) :
    classify (String.ofList (wordOf (c :: rest)))
        ((Position.counted front).advance c) =
      (wordAt front (c :: rest)).token := by
  have hNoEnd : c ≠ '\n' := by
    rintro rfl
    exact absurd hLetter (by decide)
  have hPosition :
      (Position.counted front).advance c =
        (wordAt front (c :: rest)).position := by
    simp [Position.advance, hNoEnd, Position.counted,
      Word.position, wordAt, Nat.add_comm]
  rw [hPosition]
  rfl

/- At the beginning of a word a scanner answers the word and
reads past the blank behind it. -/
theorem next_of_skipBlanks
    {scanner : Scanner}
    {front rest : List Char}
    {c : Char}
    (hActive : scanner.finished = false)
    (hSkip :
      skipBlanks scanner.position scanner.rest =
        (Position.counted front, c :: rest))
    (hLetter : Text.isBlank c = false) :
    ∃ failed,
      scanner.next =
          (some (wordAt front (c :: rest)).token,
            pastWord
              (Position.counted (front ++
                (wordAt front (c :: rest)).letters))
              (wordAt front (c :: rest)).behind failed) ∧
        (failed = true ↔
          ¬ (wordAt front (c :: rest)).HasKind) := by
  have hToken := classify_wordAt front rest hLetter
  have hEnding :
      (Position.counted front).after (wordOf (c :: rest)) =
        Position.counted (front ++
          (wordAt front (c :: rest)).letters) :=
    Position.after_counted front _
  simp only [next, hActive, hSkip, hToken, hEnding]
  cases hAnswer : (wordAt front (c :: rest)).token with
  | ok token =>
      have hKind := (Word.token_eq_ok_iff.mp hAnswer).1
      refine ⟨false, rfl, ?_⟩
      simp only [Bool.false_eq_true, false_iff, not_not]
      exact ⟨_, hKind⟩
  | error error =>
      have hNone := (Word.token_eq_error_iff.mp hAnswer).1
      exact ⟨true, rfl, by simp [hNone]⟩

theorem position_pastWord
    (front behind : List Char)
    (failed : Bool) :
    (pastWord (Position.counted front) behind
        failed).position =
      Position.counted (front ++ behind.take 1) := by
  cases behind with
  | nil => simp [pastWord]
  | cons blank rest =>
      exact (Position.counted_concat front blank).symm

theorem rest_pastWord
    (position : Position)
    (behind : List Char)
    (failed : Bool) :
    (pastWord position behind failed).rest =
      behind.drop 1 := by
  cases behind <;> rfl

/- Past a word that has a class, the words behind it are
awaited. -/
theorem awaits_pastWord
    {front behind : List Char}
    (hBehind :
      ∀ c ∈ behind.head?, Text.isBlank c = true) :
    (pastWord (Position.counted front) behind
      false).Awaits (wordsBehind front behind) := by
  cases behind with
  | nil => exact .inl ⟨rfl, rfl⟩
  | cons blank rest =>
      have hBlank :
          ∀ c ∈ [blank], Text.isBlank c = true := by
        simpa using hBehind
      have hWords :
          wordsBehind front ([blank] ++ rest) =
            wordsBehind (front ++ [blank]) rest :=
        wordsBehind_append_blanks hBlank
      refine .inr ⟨rfl, front ++ [blank], ?_, ?_, hWords⟩
      · simpa [IsSettled] using hBehind
      · exact (Position.counted_concat front blank).symm

/- Past a word without a class nothing is awaited. -/
theorem awaits_pastWord_nil
    (position : Position)
    (behind : List Char) :
    (pastWord position behind true).Awaits [] := by
  cases behind <;> exact .inl ⟨rfl, rfl⟩

/- A scanner without a word to answer answers nothing, now and
later. -/
theorem next_of_awaits_nil
    {scanner : Scanner}
    (hAwaits : scanner.Awaits []) :
    scanner.next.1 = none ∧ scanner.next.2.Awaits [] := by
  rcases hAwaits with ⟨hFinished, _⟩ |
    ⟨hActive, front, hSettled, hPosition, hWords⟩
  · have hNext : scanner.next = (none, scanner) := by
      simp [next, hFinished]
    rw [hNext]
    exact ⟨rfl, .inl ⟨hFinished, rfl⟩⟩
  · have hSkip := skipBlanks_eq scanner.position scanner.rest
    cases hRest :
        scanner.rest.dropWhile Text.isBlank with
    | nil =>
        rw [hRest] at hSkip
        simp only [next, hActive, hSkip]
        exact ⟨rfl, .inl ⟨rfl, rfl⟩⟩
    | cons c rest =>
        rw [(wordsBehind_eq_cons hSettled hRest).2] at hWords
        simp at hWords

/- A scanner answers the word that it awaits, and stands
behind the blank that ends this word. -/
theorem next_of_awaits_cons
    {scanner : Scanner}
    {word : Word}
    {later : List Word}
    (hAwaits : scanner.Awaits (word :: later)) :
    scanner.next.1 = some word.token ∧
      scanner.next.2.position =
        Position.counted (word.before ++ word.letters ++
          word.behind.take 1) ∧
      scanner.next.2.rest = word.behind.drop 1 ∧
      (word.HasKind → scanner.next.2.Awaits later) ∧
      (¬ word.HasKind → scanner.next.2.Awaits []) := by
  rcases hAwaits with ⟨_, hWords⟩ |
    ⟨hActive, front, hSettled, hPosition, hWords⟩
  · simp at hWords
  · cases hRest :
        scanner.rest.dropWhile Text.isBlank with
    | nil =>
        rw [wordsBehind_eq_nil front hRest] at hWords
        simp at hWords
    | cons c rest =>
        rcases wordsBehind_eq_cons hSettled hRest with
          ⟨hLetter, hFirst⟩
        rw [hFirst, List.cons.injEq] at hWords
        rcases hWords with ⟨rfl, rfl⟩
        have hSkip :
            skipBlanks scanner.position scanner.rest =
              (Position.counted
                (front ++
                  scanner.rest.takeWhile Text.isBlank),
                c :: rest) := by
          rw [skipBlanks_eq, hPosition,
            Position.after_counted, hRest]
        have hBehind :
            ∀ blank ∈ (wordAt
                (front ++ scanner.rest.takeWhile Text.isBlank)
                (c :: rest)).behind.head?,
              Text.isBlank blank = true :=
          (wordAt_isIn
            (isSettled_append_blanks hSettled scanner.rest)
            hLetter).isBlank_behind
        rcases next_of_skipBlanks hActive hSkip hLetter with
          ⟨failed, hNext, hFailed⟩
        rw [hNext]
        refine ⟨rfl, position_pastWord _ _ _,
          rest_pastWord _ _ _, ?_, ?_⟩
        · intro hKind
          have hGood : failed = false := by
            simpa [hKind] using hFailed
          rw [hGood]
          exact awaits_pastWord hBehind
        · intro hNone
          rw [hFailed.mpr hNone]
          exact awaits_pastWord_nil _ _

------------------------------------------------------------
-- All Answers
------------------------------------------------------------

/- A scanner after some answers. -/
def after (scanner : Scanner) : Nat → Scanner
| 0 => scanner
| index + 1 => (scanner.after index).next.2

/- The answer that a scanner gives after some others. -/
def answer
    (scanner : Scanner)
    (index : Nat) : Option (Except SongError Token) :=
  (scanner.after index).next.1

/- While words have classes, the words behind them are
awaited. -/
theorem awaits_after
    {scanner : Scanner}
    {words : List Word}
    (hAwaits : scanner.Awaits words)
    {index : Nat}
    (hKinds : ∀ word ∈ words.take index, word.HasKind) :
    (scanner.after index).Awaits (words.drop index) := by
  induction index with
  | zero => exact hAwaits
  | succ index ih =>
      rw [List.take_add_one, List.forall_mem_append] at hKinds
      have hReached := ih hKinds.1
      rw [List.drop_eq_getElem?_toList_append] at hReached
      cases hWord : words[index]? with
      | none =>
          have hDone : words.drop (index + 1) = [] :=
            List.drop_eq_nil_of_le (Nat.le_succ_of_le
              (List.getElem?_eq_none_iff.mp hWord))
          rw [hWord, hDone] at hReached
          rw [hDone]
          exact (next_of_awaits_nil hReached).2
      | some word =>
          rw [hWord] at hReached
          have hKind : word.HasKind :=
            hKinds.2 word (by simp [hWord])
          exact (next_of_awaits_cons hReached).2.2.2.1 hKind

/- Behind a word without a class nothing is awaited. -/
theorem awaits_after_nil
    {scanner : Scanner}
    {words : List Word}
    (hAwaits : scanner.Awaits words)
    {index : Nat}
    (hFault : ¬ ∀ word ∈ words.take index, word.HasKind) :
    (scanner.after index).Awaits [] := by
  induction index with
  | zero => simp at hFault
  | succ index ih =>
      by_cases hKinds :
          ∀ word ∈ words.take index, word.HasKind
      · have hReached := awaits_after hAwaits hKinds
        rw [List.drop_eq_getElem?_toList_append] at hReached
        cases hWord : words[index]? with
        | none =>
            rw [List.take_add_one, hWord] at hFault
            simp only [Option.toList_none,
              List.append_nil] at hFault
            exact absurd hKinds hFault
        | some word =>
            have hNone : ¬ word.HasKind := by
              intro hKind
              apply hFault
              rw [List.take_add_one, List.forall_mem_append,
                hWord]
              exact ⟨hKinds, by simpa using hKind⟩
            rw [hWord] at hReached
            exact (next_of_awaits_cons hReached).2.2.2.2 hNone
      · exact (next_of_awaits_nil (ih hKinds)).2

/- What a scanner answers to a word that is its turn, and how
far it has read then. -/
theorem answer_of_getElem?
    {scanner : Scanner}
    {words : List Word}
    (hAwaits : scanner.Awaits words)
    {index : Nat}
    {word : Word}
    (hWord : words[index]? = some word)
    (hKinds :
      ∀ earlier ∈ words.take index, earlier.HasKind) :
    scanner.answer index = some word.token ∧
      (scanner.after (index + 1)).position =
        Position.counted (word.before ++ word.letters ++
          word.behind.take 1) ∧
      (scanner.after (index + 1)).rest =
        word.behind.drop 1 := by
  have hReached := awaits_after hAwaits hKinds
  rw [List.drop_eq_getElem?_toList_append, hWord] at hReached
  have hNext := next_of_awaits_cons hReached
  exact ⟨hNext.1, hNext.2.1, hNext.2.2.1⟩

/- Past the last word, and past a word without a class, there
is no answer. -/
theorem answer_eq_none
    {scanner : Scanner}
    {words : List Word}
    (hAwaits : scanner.Awaits words)
    {index : Nat}
    (hPast :
      words.length ≤ index ∨
        ∃ earlier ∈ words.take index, ¬ earlier.HasKind) :
    scanner.answer index = none := by
  by_cases hKinds :
      ∀ earlier ∈ words.take index, earlier.HasKind
  · have hLength : words.length ≤ index := by
      rcases hPast with hLength | ⟨earlier, hMem, hNone⟩
      · exact hLength
      · exact absurd (hKinds earlier hMem) hNone
    have hReached := awaits_after hAwaits hKinds
    rw [List.drop_eq_nil_of_le hLength] at hReached
    exact (next_of_awaits_nil hReached).1
  · exact (next_of_awaits_nil
      (awaits_after_nil hAwaits hKinds)).1

/- The tokens of a scan are those of the awaited words. -/
theorem tokens_eq_mapM
    {scanner : Scanner}
    {words : List Word}
    (hAwaits : scanner.Awaits words) :
    scanner.tokens = words.mapM Word.token := by
  induction words generalizing scanner with
  | nil =>
      have hNone := (next_of_awaits_nil hAwaits).1
      rw [tokens]
      split
      · rfl
      · simp_all
      · simp_all
  | cons word later ih =>
      rcases next_of_awaits_cons hAwaits with
        ⟨hAnswer, _, _, hGood, _⟩
      rw [tokens]
      split
      · simp_all
      · rename_i error _ hNext
        have hToken : word.token = .error error := by
          simpa [hNext] using hAnswer.symm
        rw [mapM_cons_of_error hToken]
      · rename_i token _ hNext
        have hToken : word.token = .ok token := by
          simpa [hNext] using hAnswer.symm
        have hKind : word.HasKind :=
          ⟨_, (Word.token_eq_ok_iff.mp hToken).1⟩
        have hLater := ih (hGood hKind)
        rw [hNext] at hLater
        rw [mapM_cons_of_ok hToken, hLater]
        cases later.mapM Word.token <;> rfl

end Scanner

/- A text is read word by word. -/
theorem Token.ofText_eq_mapM (text : String) :
    Token.ofText text = (wordsOf text).mapM Word.token :=
  Scanner.tokens_eq_mapM (Scanner.awaits_ofText text)

/- What stands behind words has no effect on their tokens. -/
theorem Word.mapM_token_alone (words : List Word) :
    words.mapM token = (words.map alone).mapM token := by
  rw [List.mapM_map]
  rfl

/- A text that goes on behind a line end has the tokens of its
front, and more behind them. -/
theorem Token.exists_append_of_ofText
    {front behind : String}
    {tokens : List Token}
    (hText : ofText (front ++ "\n" ++ behind) = .ok tokens) :
    ∃ own more,
      tokens = own ++ more ∧ ofText front = .ok own := by
  have hWords :
      (wordsOf (front ++ "\n" ++ behind)).map Word.alone =
        (wordsOf front ++
          wordsBehind front.toList
            ('\n' :: behind.toList)).map Word.alone := by
    have hBlank :
        ∀ c ∈ ('\n' :: behind.toList).head?,
          Text.isBlank c = true := by
      intro c hHead
      rw [List.head?_cons, Option.mem_some_iff] at hHead
      rw [← hHead]
      decide
    have hCut :
        IsCut ([] ++ front.toList)
          ('\n' :: behind.toList) := .inr hBlank
    simpa [wordsOf] using wordsBehind_append hCut
  rw [ofText_eq_mapM, Word.mapM_token_alone, hWords,
    ← Word.mapM_token_alone] at hText
  rw [ofText_eq_mapM]
  exact exists_append_of_mapM hText

/- The words that can be read are those with a class. -/
theorem Word.hasKind_iff {word : Word} :
    (∃ token, word.token = .ok token) ↔ word.HasKind := by
  constructor
  · rintro ⟨token, hToken⟩
    exact ⟨_, (token_eq_ok_iff.mp hToken).1⟩
  · rintro ⟨kind, hKind⟩
    exact ⟨_, token_of_admits hKind⟩

/- The tokens that the words of a text are, in order. -/
def Token.AreWordsOf
    (tokens : List Token)
    (text : String) : Prop :=
  List.Forall₂
    (fun word token =>
      token.kind.Admits word.letters ∧
        token.word = word.text ∧
        token.position = word.position)
    (wordsOf text) tokens

theorem Token.ofText_eq_ok_iff
    {text : String}
    {tokens : List Token} :
    Token.ofText text = .ok tokens ↔
      Token.AreWordsOf tokens text := by
  rw [Token.ofText_eq_mapM, mapM_eq_ok_iff]
  simp only [Word.token_eq_ok_iff]
  rfl

/- Words are all tokens exactly when each has a class. -/
theorem Token.exists_areWordsOf_iff {text : String} :
    (∃ tokens, Token.AreWordsOf tokens text) ↔
      ∀ word ∈ wordsOf text, word.HasKind := by
  simp only [← Token.ofText_eq_ok_iff,
    Token.ofText_eq_mapM, exists_mapM_iff, Word.hasKind_iff]

/- A text has an error when some word has no class: the first
one of these is reported. -/
theorem Token.ofText_eq_error_iff
    {text : String}
    {error : SongError} :
    Token.ofText text = .error error ↔
      ∃ word,
        IsFirstWithout Word.HasKind (wordsOf text) word ∧
          error = ⟨.invalidWord word.text, word.position⟩ := by
  rw [ofText_eq_mapM]
  exact mapM_eq_error_iff_of_fault
    fun word error => Word.token_eq_error_iff

------------------------------------------------------------
-- Words And Answers
------------------------------------------------------------

namespace Scanner

/-
  A fresh scanner of a text answers the words of the text in
  order, the longest runs without blanks. A word with a class
  is a token at the word's place, and the first word without
  a class is an error. Later there are no answers. An answer
  reads the text up to the blank behind the word. All answers
  together are the tokens of the text or its error.
-/
structure ScansWords (text : String) : Prop where
  mem_words :
    ∀ word, word ∈ wordsOf text ↔ word.IsIn text.toList
  in_order :
    (wordsOf text).Pairwise fun first second =>
      first.before.length < second.before.length
  answer_token :
    ∀ (index : Nat) (word : Word) (kind : TokenKind),
      (wordsOf text)[index]? = some word →
      (∀ earlier ∈ (wordsOf text).take index,
        earlier.HasKind) →
      kind.Admits word.letters →
      (ofText text).answer index =
        some (.ok ⟨kind, word.text, word.position⟩)
  answer_error :
    ∀ (index : Nat) (word : Word),
      (wordsOf text)[index]? = some word →
      (∀ earlier ∈ (wordsOf text).take index,
        earlier.HasKind) →
      ¬ word.HasKind →
      (ofText text).answer index =
        some (.error
          ⟨.invalidWord word.text, word.position⟩)
  answer_none :
    ∀ index : Nat,
      ((wordsOf text).length ≤ index ∨
        ∃ earlier ∈ (wordsOf text).take index,
          ¬ earlier.HasKind) →
      (ofText text).answer index = none
  reads_past :
    ∀ (index : Nat) (word : Word),
      (wordsOf text)[index]? = some word →
      (∀ earlier ∈ (wordsOf text).take index,
        earlier.HasKind) →
      ((ofText text).after (index + 1)).position =
          Position.counted (word.before ++ word.letters ++
            word.behind.take 1) ∧
        ((ofText text).after (index + 1)).rest =
          word.behind.drop 1
  tokens_ok :
    ∀ tokens : List Token,
      Token.ofText text = .ok tokens ↔
        Token.AreWordsOf tokens text
  tokens_error :
    ∀ error : SongError,
      Token.ofText text = .error error ↔
        ∃ word,
          IsFirstWithout Word.HasKind (wordsOf text) word ∧
            error =
              ⟨.invalidWord word.text, word.position⟩

/- A scanner answers the words of every text. -/
theorem scansWords (text : String) : ScansWords text where
  mem_words := by
    intro word
    exact mem_wordsOf_iff
  in_order := pairwise_wordsOf text
  answer_token := by
    intro index word kind hWord hKinds hKind
    have hAnswer := answer_of_getElem?
      (awaits_ofText text) hWord hKinds
    rw [hAnswer.1, Word.token_of_admits hKind]
  answer_error := by
    intro index word hWord hKinds hNone
    have hAnswer := answer_of_getElem?
      (awaits_ofText text) hWord hKinds
    rw [hAnswer.1, Word.token_of_not_hasKind hNone]
  answer_none := by
    intro index hPast
    exact answer_eq_none (awaits_ofText text) hPast
  reads_past := by
    intro index word hWord hKinds
    exact (answer_of_getElem?
      (awaits_ofText text) hWord hKinds).2
  tokens_ok := by
    intro tokens
    exact Token.ofText_eq_ok_iff
  tokens_error := by
    intro error
    exact Token.ofText_eq_error_iff

end Scanner

end Carnatic
