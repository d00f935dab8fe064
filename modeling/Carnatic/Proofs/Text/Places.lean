import Carnatic.Proofs.Text.Words
import Mathlib.Data.List.DropRight
import Mathlib.Data.List.Infix

/-
  The places of words.

  Reading on changes the place, so a place belongs to one word
  of a text at most. Every character that is not blank stands
  in some word; where it stands in front of a word, it stands
  in an earlier one.

  Main declarations:
    * `Position.counted_append_ne`
    * `Word.IsIn.eq_of_position` and `Word.eq_of_split`
    * `Word.around_isIn`
    * `Word.exists_earlier_of_mem_before`
-/

------------------------------------------------------------
-- One Place, One Word
------------------------------------------------------------

namespace Carnatic

/- A longer front ends on another line, or further on. -/
theorem Position.counted_append_ne
    (front : List Char)
    {more : List Char}
    (hMore : more ≠ []) :
    counted (front ++ more) ≠ counted front := by
  intro hSame
  have hLine : more.count '\n' = 0 := by
    have hLines := congrArg Position.line hSame
    simp only [counted, List.count_append] at hLines
    omega
  have hNoEnd :
      ∀ c ∈ more.reverse, (decide (c ≠ '\n')) = true := by
    intro c hMem
    rw [decide_eq_true_eq]
    rintro rfl
    exact List.count_eq_zero.mp hLine
      (List.mem_reverse.mp hMem)
  have hColumns := congrArg Position.column hSame
  simp only [counted, List.reverse_append,
    List.takeWhile_append_of_pos hNoEnd, List.length_append,
    List.length_reverse] at hColumns
  have hLength := List.length_pos_iff.mpr hMore
  omega

namespace Word

variable {text : List Char}
variable {word other : Word}

/- A word stands one column behind its front. -/
theorem position_eq (word : Word) :
    word.position =
      ⟨(Position.counted word.before).line,
        (Position.counted word.before).column + 1⟩ := by
  simp [position, Position.counted, Nat.add_comm]

/- Where two words stand behind one front, they are the
same. -/
theorem IsIn.eq_of_before
    (hWord : word.IsIn text)
    (hOther : other.IsIn text)
    (hBefore : word.before = other.before) :
    word = other := by
  rcases List.exists_cons_of_ne_nil hWord.letters_ne_nil with
    ⟨c, later, hLetters⟩
  have hText :
      text = word.before ++ c :: (later ++ word.behind) := by
    rw [hWord.text_eq, hLetters, List.append_assoc]
    rfl
  rw [hText] at hWord hOther
  rw [(hWord.eq_wordAt rfl).1,
    (hOther.eq_wordAt (congrArg List.length hBefore.symm)).1]

/- Of two words at one place, neither has the longer front. -/
theorem IsIn.before_eq_of_le
    (hWord : word.IsIn text)
    (hOther : other.IsIn text)
    (hPosition : word.position = other.position)
    (hLength : word.before.length ≤ other.before.length) :
    word.before = other.before := by
  have hFront : word.before <+: text :=
    ⟨word.letters ++ word.behind, by
      rw [hWord.text_eq, List.append_assoc]⟩
  have hOtherFront : other.before <+: text :=
    ⟨other.letters ++ other.behind, by
      rw [hOther.text_eq, List.append_assoc]⟩
  rcases List.prefix_of_prefix_length_le hFront hOtherFront
      hLength with
    ⟨more, hMore⟩
  by_cases hNone : more = []
  · rw [← hMore, hNone, List.append_nil]
  · rw [position_eq, position_eq, Position.mk.injEq,
      Nat.add_right_cancel_iff, ← Position.mk.injEq,
      ← hMore] at hPosition
    exact absurd hPosition.symm
      (Position.counted_append_ne word.before hNone)

/- The words of a text are told apart by their places. -/
theorem IsIn.eq_of_position
    (hWord : word.IsIn text)
    (hOther : other.IsIn text)
    (hPosition : word.position = other.position) :
    word = other := by
  rcases Nat.le_total word.before.length
      other.before.length with
    hLength | hLength
  · exact hWord.eq_of_before hOther
      (hWord.before_eq_of_le hOther hPosition hLength)
  · exact (hOther.eq_of_before hWord
      (hOther.before_eq_of_le hWord hPosition.symm
        hLength)).symm

/- So a place splits the words of a text in one way only. -/
theorem eq_of_split
    {text : String}
    {front behind first last : List Word}
    (hWords : wordsOf text = front ++ word :: behind)
    (hOther : wordsOf text = first ++ other :: last)
    (hPosition : word.position = other.position) :
    front = first ∧ word = other ∧ behind = last := by
  have hWord : word.IsIn text.toList :=
    mem_wordsOf_iff.mp (by simp [hWords])
  have hSame : other.IsIn text.toList :=
    mem_wordsOf_iff.mp (by simp [hOther])
  obtain rfl := hWord.eq_of_position hSame hPosition
  have hOrder := pairwise_wordsOf text
  rw [hOther, List.pairwise_append,
    List.pairwise_cons] at hOrder
  have hFirst : word ∉ first := by
    intro hMem
    exact absurd (hOrder.2.2 word hMem word (by simp))
      (Nat.lt_irrefl _)
  have hLast : word ∉ last := by
    intro hMem
    exact absurd (hOrder.2.1.1 word hMem) (Nat.lt_irrefl _)
  have hSplit := hOther.symm.trans hWords
  rcases (List.append_cons_inj_of_notMem hFirst hLast).mp
      hSplit with
    ⟨hFront, _, hBehind⟩
  exact ⟨hFront.symm, rfl, hBehind.symm⟩

------------------------------------------------------------
-- The Word Of A Character
------------------------------------------------------------

/- The run without blanks on both sides of a place. -/
def around (front rest : List Char) : Word where
  before := front.rdropWhile fun c => !Text.isBlank c
  letters :=
    (front.rtakeWhile fun c => !Text.isBlank c) ++
      rest.takeWhile fun c => !Text.isBlank c
  behind := rest.dropWhile fun c => !Text.isBlank c

/- The run around a character that is not blank is a word. -/
theorem around_isIn
    (front rest : List Char)
    {c : Char}
    (hLetter : Text.isBlank c = false) :
    (around front (c :: rest)).IsIn (front ++ c :: rest) where
  text_eq := by
    rw [around, ← List.append_assoc,
      List.rdropWhile_append_rtakeWhile, List.append_assoc,
      List.takeWhile_append_dropWhile]
  letters_ne_nil := by
    simp [around, hLetter]
  not_isBlank := by
    intro other hOther
    rcases List.mem_append.mp hOther with hLeft | hRight
    · simpa using List.mem_rtakeWhile_imp hLeft
    · simpa using List.mem_takeWhile_imp hRight
  isBlank_before := by
    intro last hLast
    rcases List.mem_getLast?_eq_getLast hLast with ⟨hSome, rfl⟩
    have hLast := List.rdropWhile_last_not
      (fun c => !Text.isBlank c) front hSome
    rwa [Bool.not_eq_true, Bool.not_eq_false'] at hLast
  isBlank_behind := by
    intro other hOther
    have hNot := List.head?_dropWhile_not
      (fun c => !Text.isBlank c) (c :: rest)
    simp only [Option.mem_def, around] at hOther
    simpa [hOther] using hNot

/- A character in front of a word that is not blank belongs to
a word further in front. -/
theorem exists_earlier_of_mem_before
    {text : String}
    {front behind : List Word}
    {word : Word}
    (hWords : wordsOf text = front ++ word :: behind)
    {c : Char}
    (hChar : c ∈ word.before)
    (hLetter : Text.isBlank c = false) :
    ∃ earlier ∈ front, c ∈ earlier.letters := by
  have hWord : word.IsIn text.toList :=
    mem_wordsOf_iff.mp (by simp [hWords])
  rcases List.append_of_mem hChar with ⟨left, right, hBefore⟩
  have hText :
      text.toList =
        left ++ c :: (right ++ word.letters ++ word.behind) := by
    rw [hWord.text_eq, hBefore]
    simp
  refine ⟨around left
    (c :: (right ++ word.letters ++ word.behind)), ?_, ?_⟩
  · have hAround := around_isIn left
      (right ++ word.letters ++ word.behind) hLetter
    rw [← hText, ← mem_wordsOf_iff, hWords,
      List.mem_append] at hAround
    -- The words from this one on have at least its front.
    have hOrder := pairwise_wordsOf text
    rw [hWords, List.pairwise_append] at hOrder
    have hLater := List.pairwise_cons.mp hOrder.2.1
    have hFront :
        (left.rdropWhile fun c => !Text.isBlank c).length <
          word.before.length := by
      have hPrefix := (List.rdropWhile_prefix
        (fun c => !Text.isBlank c) (l := left)).length_le
      rw [hBefore, List.length_append, List.length_cons]
      omega
    rcases hAround with hEarlier | hFrom
    · exact hEarlier
    · rcases List.mem_cons.mp hFrom with hSame | hBehind
      · rw [← hSame] at hFront
        exact absurd hFront (Nat.lt_irrefl _)
      · exact absurd (hLater.1 _ hBehind) hFront.asymm
  · simp [around, hLetter]

end Word

end Carnatic
