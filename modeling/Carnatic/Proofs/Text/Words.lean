import Carnatic.Position
import Carnatic.Proofs.Reading.First
import Carnatic.Text.Blank

/-
  Words of a text.

  A word is a longest run of characters that are not blank. It
  stands behind a front of the text, whose line ends and last
  line give the word its place. The words of a text are listed
  in order, one for every character with which one begins.

  Main declarations:
    * `Position.counted`
    * `Word` and `Word.IsIn`
    * `wordsBehind` and `wordsOf`
    * `mem_wordsOf_iff`
    * `pairwise_wordsOf`
    * `wordsBehind_of_begins`
    * `IsCut` and `wordsBehind_append`
-/

------------------------------------------------------------
-- Counted Places
------------------------------------------------------------

namespace Carnatic

namespace Position

/- The place of the last character of a front: its line ends
are counted for the line, and the characters behind the last
of these for the column. -/
def counted (front : List Char) : Position where
  line := 1 + front.count '\n'
  column := (front.reverse.takeWhile (· ≠ '\n')).length

theorem counted_concat
    (front : List Char)
    (c : Char) :
    counted (front ++ [c]) = (counted front).advance c := by
  by_cases hEnd : c = '\n'
  · simp [counted, advance, hEnd, Nat.add_assoc]
  · simp [counted, advance, hEnd]

/- Reading on from a counted place counts on. -/
theorem after_counted
    (front rest : List Char) :
    (counted front).after rest = counted (front ++ rest) := by
  induction rest generalizing front with
  | nil => simp
  | cons c rest ih =>
      rw [after_cons, ← counted_concat, ih,
        List.append_assoc, List.singleton_append]

end Position

------------------------------------------------------------
-- Words
------------------------------------------------------------

/- A run of characters in a text: what stands in front of it,
the run itself, and what stands behind it. -/
structure Word where
  before : List Char
  letters : List Char
  behind : List Char
deriving DecidableEq, Repr

namespace Word

/- A longest run of a text without blanks. -/
structure IsIn
    (word : Word)
    (text : List Char) : Prop where
  text_eq :
    text = word.before ++ word.letters ++ word.behind
  letters_ne_nil : word.letters ≠ []
  not_isBlank :
    ∀ c ∈ word.letters, Text.isBlank c = false
  isBlank_before :
    ∀ c ∈ word.before.getLast?, Text.isBlank c = true
  isBlank_behind :
    ∀ c ∈ word.behind.head?, Text.isBlank c = true

/- The word as a text of its own. -/
def text (word : Word) : String :=
  String.ofList word.letters

/- The place of a word's first character, counted from the
front of the word. -/
def position (word : Word) : Position where
  line := 1 + word.before.count '\n'
  column :=
    1 + (word.before.reverse.takeWhile (· ≠ '\n')).length

end Word

/- A front behind which a word can begin. -/
def IsSettled (front : List Char) : Prop :=
  ∀ last ∈ front.getLast?, Text.isBlank last = true

instance (front : List Char) : Decidable (IsSettled front) :=
  Option.decidableForallMem front.getLast?

/- A word of a text whose first character stands behind a
front. -/
def wordAt (front rest : List Char) : Word where
  before := front
  letters := rest.takeWhile fun c => !Text.isBlank c
  behind := rest.dropWhile fun c => !Text.isBlank c

/- The words that begin behind a front: each begins with a
character that is not blank, behind a blank or nothing. -/
def wordsBehind : List Char → List Char → List Word
| _, [] => []
| front, c :: rest =>
    if IsSettled front ∧ Text.isBlank c = false then
      wordAt front (c :: rest) ::
        wordsBehind (front ++ [c]) rest
    else
      wordsBehind (front ++ [c]) rest

/- The words of a text in order. -/
def wordsOf (text : String) : List Word :=
  wordsBehind [] text.toList

------------------------------------------------------------
-- All Words In Order
------------------------------------------------------------

/- A text is cut in front of its first blank. -/
theorem takeWhile_dropWhile_letters
    {letters behind : List Char}
    (hLetters : ∀ c ∈ letters, Text.isBlank c = false)
    (hBehind :
      ∀ c ∈ behind.head?, Text.isBlank c = true) :
    (letters ++ behind).takeWhile
          (fun c => !Text.isBlank c) = letters ∧
      (letters ++ behind).dropWhile
          (fun c => !Text.isBlank c) = behind := by
  apply takeWhile_dropWhile_append
  · intro c hLetter
    rw [hLetters c hLetter, Bool.not_false]
  · intro c hBlank
    rw [hBehind c hBlank, Bool.not_true]

/- A word begins behind a settled front with a character that
is not blank. -/
theorem wordAt_isIn
    {front rest : List Char}
    {c : Char}
    (hSettled : IsSettled front)
    (hLetter : Text.isBlank c = false) :
    (wordAt front (c :: rest)).IsIn
      (front ++ c :: rest) where
  text_eq := by
    rw [List.append_assoc, wordAt,
      List.takeWhile_append_dropWhile]
  letters_ne_nil := by
    simp [wordAt, hLetter]
  not_isBlank := by
    intro other hOther
    simpa using List.mem_takeWhile_imp hOther
  isBlank_before := hSettled
  isBlank_behind := by
    intro other hOther
    have hNot := List.head?_dropWhile_not
      (fun c => !Text.isBlank c) (c :: rest)
    simp only [Option.mem_def, wordAt] at hOther
    simpa [hOther] using hNot

/- A word whose front ends there begins behind this front, in
the only way. -/
theorem Word.IsIn.eq_wordAt
    {word : Word}
    {front rest : List Char}
    {c : Char}
    (hWord : word.IsIn (front ++ c :: rest))
    (hLength : word.before.length = front.length) :
    word = wordAt front (c :: rest) ∧
      IsSettled front ∧ Text.isBlank c = false := by
  have hText := hWord.text_eq
  rw [List.append_assoc] at hText
  rcases List.append_inj hText hLength.symm with
    ⟨hFront, hRest⟩
  have hCut := takeWhile_dropWhile_letters
    hWord.not_isBlank hWord.isBlank_behind
  refine ⟨?_, ?_, ?_⟩
  · rw [wordAt, hRest, hCut.1, hCut.2, hFront]
  · rw [hFront]
    exact hWord.isBlank_before
  · rcases List.exists_cons_of_ne_nil hWord.letters_ne_nil
      with ⟨first, later, hLetters⟩
    rw [hLetters, List.cons_append,
      List.cons.injEq] at hRest
    rw [hRest.1]
    exact hWord.not_isBlank first (by simp [hLetters])

/- The words listed behind a front are those that begin
there. -/
theorem mem_wordsBehind_iff
    {word : Word}
    {front rest : List Char} :
    word ∈ wordsBehind front rest ↔
      word.IsIn (front ++ rest) ∧
        front.length ≤ word.before.length := by
  induction rest generalizing front with
  | nil =>
      simp only [wordsBehind, List.not_mem_nil,
        List.append_nil, false_iff, not_and, Nat.not_le]
      intro hWord
      have hLength := congrArg List.length hWord.text_eq
      have hSome :=
        List.length_pos_iff.mpr hWord.letters_ne_nil
      simp only [List.length_append] at hLength
      omega
  | cons c rest ih =>
      have hLater :
          word ∈ wordsBehind (front ++ [c]) rest ↔
            word.IsIn (front ++ c :: rest) ∧
              front.length < word.before.length := by
        rw [ih, List.append_assoc, List.singleton_append,
          List.length_append, List.length_singleton,
          Nat.lt_iff_add_one_le]
      by_cases hBegins :
          IsSettled front ∧ Text.isBlank c = false
      · rw [wordsBehind, if_pos hBegins, List.mem_cons,
          hLater]
        constructor
        · rintro (rfl | ⟨hWord, hBehind⟩)
          · exact ⟨wordAt_isIn hBegins.1 hBegins.2,
              Nat.le_refl _⟩
          · exact ⟨hWord, hBehind.le⟩
        · rintro ⟨hWord, hFront⟩
          rcases Nat.eq_or_lt_of_le hFront with hEq | hLt
          · exact .inl (hWord.eq_wordAt hEq.symm).1
          · exact .inr ⟨hWord, hLt⟩
      · rw [wordsBehind, if_neg hBegins, hLater]
        constructor
        · rintro ⟨hWord, hBehind⟩
          exact ⟨hWord, hBehind.le⟩
        · rintro ⟨hWord, hFront⟩
          rcases Nat.eq_or_lt_of_le hFront with hEq | hLt
          · exact absurd (hWord.eq_wordAt hEq.symm).2 hBegins
          · exact ⟨hWord, hLt⟩

/- The words of a text are its longest runs without blanks. -/
theorem mem_wordsOf_iff
    {word : Word}
    {text : String} :
    word ∈ wordsOf text ↔ word.IsIn text.toList := by
  simp [wordsOf, mem_wordsBehind_iff]

/- Words behind a front are listed in the order in which they
stand. -/
theorem pairwise_wordsBehind
    (front rest : List Char) :
    (wordsBehind front rest).Pairwise
      fun first second =>
        first.before.length < second.before.length := by
  induction rest generalizing front with
  | nil => exact .nil
  | cons c rest ih =>
      rw [wordsBehind]
      split
      · refine .cons ?_ (ih _)
        intro later hLater
        have hBehind := (mem_wordsBehind_iff.mp hLater).2
        rw [List.length_append] at hBehind
        exact hBehind
      · exact ih _

theorem pairwise_wordsOf (text : String) :
    (wordsOf text).Pairwise fun first second =>
      first.before.length < second.before.length :=
  pairwise_wordsBehind [] text.toList

------------------------------------------------------------
-- Words One After The Other
------------------------------------------------------------

/- No word begins with a blank. -/
theorem wordsBehind_append_blanks
    {front blanks rest : List Char}
    (hBlanks : ∀ c ∈ blanks, Text.isBlank c = true) :
    wordsBehind front (blanks ++ rest) =
      wordsBehind (front ++ blanks) rest := by
  induction blanks generalizing front with
  | nil => simp
  | cons c blanks ih =>
      rcases List.forall_mem_cons.mp hBlanks with
        ⟨hBlank, hLater⟩
      rw [List.cons_append, wordsBehind, if_neg (by simp [hBlank]),
        ih hLater, List.append_assoc, List.singleton_append]

/- No word begins inside another one. -/
theorem wordsBehind_append_letters
    {front letters rest : List Char}
    {last : Char}
    (hLast : Text.isBlank last = false)
    (hLetters : ∀ c ∈ letters, Text.isBlank c = false) :
    wordsBehind (front ++ [last]) (letters ++ rest) =
      wordsBehind (front ++ [last] ++ letters) rest := by
  induction letters generalizing front last with
  | nil => simp
  | cons c letters ih =>
      rcases List.forall_mem_cons.mp hLetters with
        ⟨hLetter, hLater⟩
      have hInside : ¬ IsSettled (front ++ [last]) := by
        simp [IsSettled, hLast]
      rw [List.cons_append, wordsBehind,
        if_neg (by simp [hInside]), ih hLetter hLater]
      simp

/- The first word of a text that starts with one is followed by
the words behind it. -/
theorem wordsBehind_of_begins
    {front rest : List Char}
    {c : Char}
    (hSettled : IsSettled front)
    (hLetter : Text.isBlank c = false) :
    wordsBehind front (c :: rest) =
      wordAt front (c :: rest) ::
        wordsBehind
          (front ++ (wordAt front (c :: rest)).letters)
          (wordAt front (c :: rest)).behind := by
  have hLetters :
      (wordAt front (c :: rest)).letters =
        c :: rest.takeWhile fun c => !Text.isBlank c := by
    simp [wordAt, hLetter]
  have hBehind :
      (wordAt front (c :: rest)).behind =
        rest.dropWhile fun c => !Text.isBlank c := by
    simp [wordAt, hLetter]
  have hInside :
      ∀ other ∈ rest.takeWhile fun c => !Text.isBlank c,
        Text.isBlank other = false := by
    intro other hOther
    simpa using List.mem_takeWhile_imp hOther
  have hRest :
      wordsBehind (front ++ [c]) rest =
        wordsBehind
          (front ++ [c] ++
            rest.takeWhile fun c => !Text.isBlank c)
          (rest.dropWhile fun c => !Text.isBlank c) := by
    rw [← wordsBehind_append_letters hLetter hInside,
      List.takeWhile_append_dropWhile]
  rw [wordsBehind, if_pos ⟨hSettled, hLetter⟩, hRest,
    hLetters, hBehind, List.append_assoc,
    List.singleton_append]

------------------------------------------------------------
-- Texts One After The Other
------------------------------------------------------------

/- A word as if its text ended with it. -/
def Word.alone (word : Word) : Word :=
  { word with behind := [] }

/- A place at which no word goes on. A word that begins in
front of it ends there. -/
def IsCut (front rest : List Char) : Prop :=
  IsSettled front ∨
    ∀ c ∈ rest.head?, Text.isBlank c = true

theorem Word.alone_wordAt_append
    {front text rest : List Char}
    {c : Char}
    (hCut : IsCut (front ++ c :: text) rest) :
    (wordAt front (c :: text ++ rest)).alone =
      (wordAt front (c :: text)).alone := by
  have hLetters :
      (c :: text ++ rest).takeWhile
          (fun c => !Text.isBlank c) =
        (c :: text).takeWhile fun c => !Text.isBlank c := by
    rw [List.takeWhile_append]
    split
    · rename_i hLength
      have hAll := (List.takeWhile_prefix _).eq_of_length
        hLength
      rcases hCut with hSettled | hRest
      -- The last character is one of the letters.
      · have hLast := List.getLast_mem
          (List.cons_ne_nil c text)
        have hBlank := hSettled
          ((c :: text).getLast (List.cons_ne_nil c text))
          (by simp [List.getLast?_cons,
            List.getLast_eq_getLastD])
        have hLetter :=
          List.takeWhile_eq_self_iff.mp hAll _ hLast
        simp [hBlank] at hLetter
      · have hNone :
            rest.takeWhile (fun c => !Text.isBlank c) =
              [] := by
          cases rest with
          | nil => rfl
          | cons c later => simp [hRest c rfl]
        rw [hNone, List.append_nil, hAll]
    · rfl
  simp only [alone, wordAt, hLetters]

/- Characters behind a cut leave the words in front of it as
they are, and add their own. -/
theorem wordsBehind_append
    {front text rest : List Char}
    (hCut : IsCut (front ++ text) rest) :
    (wordsBehind front (text ++ rest)).map Word.alone =
      (wordsBehind front text ++
        wordsBehind (front ++ text) rest).map Word.alone := by
  induction text generalizing front with
  | nil => simp [wordsBehind]
  | cons c text ih =>
      have hWord := Word.alone_wordAt_append hCut
      rw [List.append_cons] at hCut
      have hLater := ih hCut
      rw [← List.append_cons] at hLater
      rw [List.cons_append] at hWord ⊢
      rw [wordsBehind, wordsBehind]
      split
      · rw [List.cons_append, List.map_cons, List.map_cons,
          hLater, hWord]
      · exact hLater

end Carnatic
