import Carnatic.SongError
import Carnatic.Text.Blank

/-
  Scanning a text for its tokens.

  A scanner holds the text not yet read.  Each step skips
  blanks, takes one word, and reads past the blank behind it.
  The first word without a class ends the scan with an error.

  Key definitions include:
    * `Scanner`
    * `Scanner.next`
    * `Scanner.tokens`
    * `Token.ofText`
-/

------------------------------------------------------------
-- Words
------------------------------------------------------------

namespace Carnatic

namespace Scanner

/- Read blanks: the place after them and the text behind. -/
def skipBlanks :
    Position → List Char → Position × List Char
| position, [] => (position, [])
| position, c :: rest =>
    if Text.isBlank c then
      skipBlanks (position.advance c) rest
    else
      (position, c :: rest)

/- The longest front of a text without blanks. -/
def wordOf (text : List Char) : List Char :=
  text.takeWhile fun c => !Text.isBlank c

/- What stands behind the longest front without blanks. -/
def behindWord (text : List Char) : List Char :=
  text.dropWhile fun c => !Text.isBlank c

/- Skipping blanks never lengthens a text. -/
theorem length_skipBlanks
    (position : Position)
    (text : List Char) :
    (skipBlanks position text).2.length ≤ text.length := by
  induction text generalizing position with
  | nil => simp [skipBlanks]
  | cons c rest ih =>
      by_cases hBlank : Text.isBlank c
      · simp only [skipBlanks, hBlank, if_true,
          List.length_cons]
        exact Nat.le_succ_of_le (ih _)
      · simp [skipBlanks, hBlank]

/- Behind the blanks a text ends or a word begins. -/
theorem not_isBlank_of_skipBlanks
    {position : Position}
    {text rest : List Char}
    {c : Char}
    (hSkip : (skipBlanks position text).2 = c :: rest) :
    Text.isBlank c = false := by
  induction text generalizing position with
  | nil => simp [skipBlanks] at hSkip
  | cons d text ih =>
      by_cases hBlank : Text.isBlank d
      · simp only [skipBlanks, hBlank, if_true] at hSkip
        exact ih hSkip
      · simp only [skipBlanks, hBlank, if_false,
          List.cons.injEq, Bool.false_eq_true] at hSkip
        rcases hSkip with ⟨rfl, _⟩
        simpa using hBlank

/- Taking a word off a text that starts with one shortens
the text. -/
theorem length_behindWord_lt
    {c : Char}
    (rest : List Char)
    (hWord : Text.isBlank c = false) :
    (behindWord (c :: rest)).length < (c :: rest).length := by
  have hDrop : behindWord (c :: rest) = behindWord rest := by
    simp [behindWord, hWord]
  rw [hDrop, List.length_cons]
  exact Nat.lt_succ_of_le
    (List.dropWhile_suffix _).length_le

end Scanner

------------------------------------------------------------
-- Scanners
------------------------------------------------------------

/-
  A scan in progress: the text not yet read, the place of the
  last character read, and whether the scan has ended.
-/
structure Scanner where
  rest : List Char
  position : Position
  finished : Bool

namespace Scanner

/- A scanner that has read nothing yet. -/
def ofText (text : String) : Scanner where
  rest := text.toList
  position := Position.origin
  finished := false

/- A word at a place as a token, if it has a class. -/
def classify
    (word : String)
    (position : Position) : Except SongError Token :=
  match TokenKind.ofWord? word with
  | some kind => .ok ⟨kind, word, position⟩
  | none => .error ⟨.invalidWord word, position⟩

/-
  The scanner after a word that ends at a place, with the
  text behind the word: the blank there is read too, and the
  end of the text ends the scan.
-/
def pastWord
    (position : Position)
    (behind : List Char)
    (failed : Bool) : Scanner :=
  match behind with
  | [] => ⟨[], position, true⟩
  | blank :: rest => ⟨rest, position.advance blank, failed⟩

/-
  One step: the next token or the error that ends the scan,
  or nothing once the scan has ended.
-/
def next
    (scanner : Scanner) :
    Option (Except SongError Token) × Scanner :=
  if scanner.finished then
    (none, scanner)
  else
    match skipBlanks scanner.position scanner.rest with
    | (position, []) => (none, ⟨[], position, true⟩)
    | (position, c :: rest) =>
        let word := wordOf (c :: rest)
        let behind := behindWord (c :: rest)
        let ending := position.after word
        match classify (String.ofList word)
            (position.advance c) with
        | .ok token =>
            (some (.ok token), pastWord ending behind false)
        | .error error =>
            (some (.error error),
              pastWord ending behind true)

/- Reading past a word leaves no more than stood behind. -/
theorem length_pastWord
    (position : Position)
    (behind : List Char)
    (failed : Bool) :
    (pastWord position behind failed).rest.length ≤
      behind.length := by
  cases behind <;> simp [pastWord]

/- A step that answers something shortens the text. -/
theorem length_next_lt
    {scanner following : Scanner}
    {answer : Except SongError Token}
    (hNext : scanner.next = (some answer, following)) :
    following.rest.length < scanner.rest.length := by
  unfold next at hNext
  split at hNext
  · simp at hNext
  · split at hNext
    · simp at hNext
    · rename_i position c rest hSkip
      have hBlank : Text.isBlank c = false :=
        not_isBlank_of_skipBlanks (by rw [hSkip])
      have hSkipped :
          (c :: rest).length ≤ scanner.rest.length := by
        have hLength :=
          length_skipBlanks scanner.position scanner.rest
        rwa [hSkip] at hLength
      have hBehind := length_behindWord_lt rest hBlank
      have hPast := fun failed =>
        length_pastWord
          (position.after (wordOf (c :: rest)))
          (behindWord (c :: rest)) failed
      simp only at hNext
      split at hNext <;>
        · simp only [Prod.mk.injEq] at hNext
          rw [← hNext.2]
          exact Nat.lt_of_le_of_lt (hPast _)
            (Nat.lt_of_lt_of_le hBehind hSkipped)

/- All tokens of a scan, or its error. -/
def tokens
    (scanner : Scanner) : Except SongError (List Token) :=
  match _hNext : scanner.next with
  | (none, _) => .ok []
  | (some (.error error), _) => .error error
  | (some (.ok token), following) =>
      match tokens following with
      | .ok rest => .ok (token :: rest)
      | .error error => .error error
termination_by scanner.rest.length
decreasing_by exact length_next_lt _hNext

end Scanner

/- The tokens of a text, or the error at the first word
without a class. -/
def Token.ofText
    (text : String) : Except SongError (List Token) :=
  (Scanner.ofText text).tokens

end Carnatic
