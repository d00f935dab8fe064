import Carnatic.Proofs.Text.Words
import Mathlib.Data.List.Infix

/-
  Other letters for the words of a text.

  At a cut between two words, what stands on one side spells
  the same words whatever stands on the other. Words of a text
  can therefore be given other letters: what these spell takes
  the place of the words, and all other words stay.

  Main declarations:
    * `spelled` and `spelled_append`
    * `Word.spelled_around`
    * `Word.between`
    * `Word.respelled` and `Word.map_text_respelled`
-/

------------------------------------------------------------
-- Spelled Words
------------------------------------------------------------

namespace Carnatic

/- The words that characters spell, as texts of their own. -/
def spelled (text : List Char) : List String :=
  (wordsBehind [] text).map Word.text

theorem map_text_map_alone (words : List Word) :
    (words.map Word.alone).map Word.text =
      words.map Word.text := by
  rw [List.map_map]
  rfl

/- Fronts have no effect on the texts of the words behind
them, but for whether a word can begin there. -/
theorem map_text_wordsBehind
    {front other : List Char}
    (hFronts : IsSettled front ↔ IsSettled other)
    (rest : List Char) :
    (wordsBehind front rest).map Word.text =
      (wordsBehind other rest).map Word.text := by
  induction rest generalizing front other with
  | nil => rfl
  | cons c rest ih =>
      have hLater :
          IsSettled (front ++ [c]) ↔
            IsSettled (other ++ [c]) := by
        simp [IsSettled]
      simp only [wordsBehind, hFronts]
      split
      · rw [List.map_cons, List.map_cons, ih hLater]
        rfl
      · exact ih hLater

/- Behind a cut, the words are those that are spelled there. -/
theorem map_text_wordsBehind_of_isCut
    {front rest : List Char}
    (hCut : IsCut front rest) :
    (wordsBehind front rest).map Word.text = spelled rest := by
  rcases hCut with hSettled | hRest
  · exact map_text_wordsBehind
      (iff_of_true hSettled (by simp [IsSettled])) rest
  -- The first character begins no word behind any front.
  · cases rest with
    | nil => rfl
    | cons c rest =>
        have hBlank := hRest c rfl
        have hFronts :
            IsSettled (front ++ [c]) ↔
              IsSettled ([] ++ [c]) := by
          simp [IsSettled]
        rw [spelled, wordsBehind, wordsBehind,
          if_neg (by simp [hBlank]), if_neg (by simp [hBlank])]
        exact map_text_wordsBehind hFronts rest

/- On both sides of a cut words are spelled as they are
alone. -/
theorem spelled_append
    {text rest : List Char}
    (hCut : IsCut text rest) :
    spelled (text ++ rest) = spelled text ++ spelled rest := by
  have hBehind : IsCut ([] ++ text) rest := hCut
  have hWords := congrArg (List.map Word.text)
    (wordsBehind_append hBehind)
  rw [map_text_map_alone, map_text_map_alone,
    List.map_append] at hWords
  rw [spelled, hWords]
  exact congrArg _ (map_text_wordsBehind_of_isCut hCut)

------------------------------------------------------------
-- Words Around A Word
------------------------------------------------------------

namespace Word

variable {text : String}
variable {front behind : List Word}

/- The letters of a word spell this word. -/
theorem IsIn.spelled_letters
    {word : Word}
    {text : List Char}
    (hWord : word.IsIn text) :
    spelled word.letters = [word.text] := by
  rcases List.exists_cons_of_ne_nil hWord.letters_ne_nil with
    ⟨c, later, hLetters⟩
  have hAll := hWord.not_isBlank
  rw [hLetters] at hAll
  have hNone :
      ∀ c ∈ ([] : List Char).head?,
        Text.isBlank c = true := by
    simp
  have hCut := takeWhile_dropWhile_letters hAll hNone
  rw [List.append_nil] at hCut
  rw [spelled, hLetters, wordsBehind_of_begins
    (by simp [IsSettled]) (hAll c (by simp)), wordAt,
    hCut.1, hCut.2, Word.text, hLetters]
  rfl

/- A word begins behind its front and is followed by the words
behind its letters. -/
theorem IsIn.wordsBehind_eq
    {word : Word}
    {text : List Char}
    (hWord : word.IsIn text) :
    wordsBehind word.before (word.letters ++ word.behind) =
      word ::
        wordsBehind (word.before ++ word.letters)
          word.behind := by
  have hText := hWord.text_eq
  rcases List.exists_cons_of_ne_nil hWord.letters_ne_nil with
    ⟨c, later, hLetters⟩
  rw [List.append_assoc, hLetters, List.cons_append] at hText
  rw [hText] at hWord
  rcases hWord.eq_wordAt rfl with ⟨hSame, hSettled, hLetter⟩
  rw [hLetters, List.cons_append,
    wordsBehind_of_begins hSettled hLetter, ← hSame, hLetters]

/- The words of a text around one of them are those that are
spelled there. -/
theorem spelled_around
    {word : Word}
    (hWords : wordsOf text = front ++ word :: behind) :
    front.map Word.text = spelled word.before ∧
      behind.map Word.text = spelled word.behind := by
  have hWord : word.IsIn text.toList :=
    mem_wordsOf_iff.mp (by simp [hWords])
  have hText := hWord.text_eq
  rw [List.append_assoc] at hText
  have hCut :
      IsCut ([] ++ word.before)
        (word.letters ++ word.behind) :=
    .inl hWord.isBlank_before
  have hAlone := wordsBehind_append hCut
  rw [List.nil_append, hWord.wordsBehind_eq, ← hText,
    ← wordsOf, hWords, List.map_append, List.map_append,
    List.map_cons, List.map_cons] at hAlone
  -- No other word has the same front.
  have hOrder := pairwise_wordsOf text
  rw [hWords, List.pairwise_append,
    List.pairwise_cons] at hOrder
  have hFront : word.alone ∉ front.map Word.alone := by
    intro hMem
    rcases List.mem_map.mp hMem with ⟨other, hOther, hSame⟩
    have hLt := hOrder.2.2 other hOther word (by simp)
    exact absurd (congrArg (·.before.length) hSame) hLt.ne
  have hBehind : word.alone ∉ behind.map Word.alone := by
    intro hMem
    rcases List.mem_map.mp hMem with ⟨other, hOther, hSame⟩
    have hLt := hOrder.2.1.1 other hOther
    exact absurd (congrArg (·.before.length) hSame) hLt.ne'
  rcases (List.append_cons_inj_of_notMem hFront hBehind).mp
      hAlone with
    ⟨hSame, _, hRest⟩
  have hFrontText := congrArg (List.map Word.text) hSame
  have hBehindText := congrArg (List.map Word.text) hRest
  rw [map_text_map_alone, map_text_map_alone]
    at hFrontText hBehindText
  exact ⟨hFrontText, hBehindText.trans
    (map_text_wordsBehind_of_isCut (.inr hWord.isBlank_behind))⟩

------------------------------------------------------------
-- Two Words With Other Letters
------------------------------------------------------------

/- What stands between two words, cut out of the front of the
second one. -/
def between (first second : Word) : List Char :=
  second.before.drop (first.before ++ first.letters).length

/- A text in which two of its words have other letters. -/
def respelled
    (first second : Word)
    (letters others : List Char) : String :=
  String.ofList
    (first.before ++ letters ++ between first second ++
      others ++ second.behind)

/- Two words of a text with what stands between them, which
begins and ends with a blank. -/
structure AreApart
    (first second : Word) : Prop where
  before_eq :
    second.before =
      first.before ++ first.letters ++ between first second
  behind_eq :
    first.behind =
      between first second ++
        (second.letters ++ second.behind)
  isBlank_head :
    ∀ c ∈ (between first second).head?,
      Text.isBlank c = true
  isSettled :
    ∀ front, IsSettled (front ++ between first second)

section Apart

variable {text : List Char}
variable {first second : Word}
variable (hFirst : first.IsIn text)
variable (hSecond : second.IsIn text)

include hFirst hSecond

/- No word begins behind some of the letters of another. -/
theorem IsIn.before_ne_of_inside
    {letters : List Char}
    (hLetters : letters ≠ [])
    (hInside : letters <+: first.letters) :
    second.before ≠ first.before ++ letters := by
  intro hBefore
  rcases List.eq_nil_or_concat' letters with
    hNone | ⟨some, last, rfl⟩
  · exact hLetters hNone
  · have hBlank := hSecond.isBlank_before
    rw [hBefore, ← List.append_assoc] at hBlank
    have hLast : last ∈ first.letters :=
      hInside.subset (by simp)
    have hLetter := hFirst.not_isBlank last hLast
    simp [hLetter] at hBlank

/- Of two words, the later one stands behind the letters of
the earlier one, with something between them. -/
theorem IsIn.exists_before_eq
    (hLt : first.before.length < second.before.length) :
    ∃ gap,
      gap ≠ [] ∧
        second.before = first.before ++ first.letters ++ gap := by
  have hOwn : first.before ++ first.letters <+: text :=
    ⟨first.behind, hFirst.text_eq.symm⟩
  have hFront : second.before <+: text :=
    ⟨second.letters ++ second.behind, by
      rw [hSecond.text_eq, List.append_assoc]⟩
  rcases Nat.lt_or_ge (first.before ++ first.letters).length
      second.before.length with
    hApart | hInside
  · rcases List.prefix_of_prefix_length_le hOwn hFront
        hApart.le with
      ⟨gap, hGap⟩
    refine ⟨gap, ?_, hGap.symm⟩
    rintro rfl
    rw [List.append_nil] at hGap
    exact absurd (congrArg List.length hGap) hApart.ne
  -- Otherwise the second word began inside the first.
  · rcases List.prefix_of_prefix_length_le
        ((List.prefix_append _ _).trans hOwn) hFront
        hLt.le with
      ⟨letters, hLetters⟩
    have hSome : letters ≠ [] := by
      rintro rfl
      rw [List.append_nil] at hLetters
      exact absurd (congrArg List.length hLetters) hLt.ne
    have hPrefix :=
      List.prefix_of_prefix_length_le hFront hOwn hInside
    rw [← hLetters, List.prefix_append_right_inj] at hPrefix
    exact absurd hLetters.symm
      (hFirst.before_ne_of_inside hSecond hSome hPrefix)

theorem IsIn.areApart
    (hLt : first.before.length < second.before.length) :
    AreApart first second := by
  rcases hFirst.exists_before_eq hSecond hLt with
    ⟨gap, hSome, hBefore⟩
  have hBetween : between first second = gap := by
    rw [between, hBefore, List.drop_left]
  have hBehind :
      first.behind =
        gap ++ (second.letters ++ second.behind) := by
    have hText := hSecond.text_eq
    rw [hFirst.text_eq, hBefore] at hText
    simpa [List.append_assoc] using hText
  rw [← hBetween] at hBefore hBehind hSome
  refine ⟨hBefore, hBehind, ?_, ?_⟩
  · have hBlank := hFirst.isBlank_behind
    rwa [hBehind, List.head?_append_of_ne_nil _ hSome]
      at hBlank
  · intro front
    have hBlank := hSecond.isBlank_before
    rw [hBefore, List.getLast?_append_of_ne_nil _ hSome]
      at hBlank
    rwa [IsSettled, List.getLast?_append_of_ne_nil _ hSome]

end Apart

/- The words of a text of which two have other letters: what
the letters spell, and the words around them. -/
theorem map_text_respelled
    {first second : Word}
    {middle : List Word}
    (hWords :
      wordsOf text =
        front ++ first :: (middle ++ second :: behind))
    (letters others : List Char) :
    (wordsOf (respelled first second letters others)).map
        Word.text =
      front.map Word.text ++ spelled letters ++
        middle.map Word.text ++ spelled others ++
          behind.map Word.text := by
  have hFirst : first.IsIn text.toList :=
    mem_wordsOf_iff.mp (by simp [hWords])
  have hSecond : second.IsIn text.toList :=
    mem_wordsOf_iff.mp (by simp [hWords])
  have hOrder := pairwise_wordsOf text
  rw [hWords, List.pairwise_append,
    List.pairwise_cons] at hOrder
  have hApart := hFirst.areApart hSecond
    (hOrder.2.1.1 second (by simp))
  have hAround := spelled_around hWords
  have hRest :
      wordsOf text =
        (front ++ first :: middle) ++ second :: behind := by
    simp [hWords]
  have hLast := (spelled_around hRest).2
  have hMiddle :
      middle.map Word.text = spelled (between first second) := by
    have hSettled : IsSettled (between first second) :=
      hApart.isSettled []
    have hBehind := hAround.2
    rw [hApart.behind_eq, spelled_append (.inl hSettled),
      spelled_append (.inr hSecond.isBlank_behind),
      hSecond.spelled_letters, ← hLast] at hBehind
    simpa using hBehind
  calc
    (wordsOf (respelled first second letters others)).map
          Word.text =
        spelled
          (first.before ++ letters ++ between first second ++
            others ++ second.behind) := by
      rw [wordsOf, respelled, String.toList_ofList]
      rfl
    _ = spelled first.before ++ spelled letters ++
          spelled (between first second) ++
            spelled others ++ spelled second.behind := by
      rw [spelled_append (.inr hSecond.isBlank_behind),
        spelled_append (.inl (hApart.isSettled _)),
        spelled_append (.inr hApart.isBlank_head),
        spelled_append (.inl hFirst.isBlank_before)]
    _ = _ := by
      rw [hAround.1, hMiddle, hLast]

end Word

end Carnatic
