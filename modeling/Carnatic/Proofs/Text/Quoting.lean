import Carnatic.Text.Quoted
import Mathlib.Data.Nat.Init
import Mathlib.Tactic.SplitIfs

/-
  Quoted text read back.

  A quoted text stands on one line, whatever it quotes, and it
  says where it ends. Read character by character it gives the
  text back: an escape stands for one character, and a quote
  without a backslash in front is the end.

  Main declarations:
    * `Text.isLineBreak`
    * `Text.readNumber` and `Text.readNumber_toDigits`
    * `Text.readCharacter?` and `Text.readCharacter?_escape`
    * `Text.readQuoted?` and `Text.readQuoted?_quote`
    * `Text.not_isLineBreak_of_mem_quote`
-/

------------------------------------------------------------
-- Numbers
------------------------------------------------------------

namespace Carnatic

namespace Text

/- The value of a digit. -/
def digit? (base : Nat) (c : Char) : Option Nat :=
  (List.range base).find? fun value => value.digitChar = c

/- Read on behind the digits of a number: the number, and what
stands behind its last digit. -/
def readNumber
    (base : Nat) :
    Nat → List Char → Nat × List Char
| value, [] => (value, [])
| value, c :: rest =>
    match digit? base c with
    | some digit =>
        readNumber base (value * base + digit) rest
    | none => (value, c :: rest)

theorem length_readNumber_le
    (base value : Nat)
    (text : List Char) :
    (readNumber base value text).2.length ≤ text.length := by
  induction text generalizing value with
  | nil => exact Nat.le_refl 0
  | cons c rest ih =>
      rw [readNumber]
      cases digit? base c with
      | some digit => exact Nat.le_succ_of_le (ih _)
      | none => exact Nat.le_refl _

/- The digits up to sixteen differ. -/
theorem digit?_digitChar
    {base value : Nat}
    (hBase : base ≤ 16)
    (hValue : value < base) :
    digit? base value.digitChar = some value := by
  have hDiffer :
      ∀ first < 16, ∀ second < first,
        second.digitChar ≠ first.digitChar := by
    decide
  rw [digit?, List.find?_range_eq_some]
  refine ⟨by simp, List.mem_range.mpr hValue, ?_⟩
  intro other hLess
  simpa using hDiffer value (by omega) other hLess

/- A character that is no digit. -/
def IsNoDigit (c : Char) : Prop :=
  ∀ value < 16, value.digitChar ≠ c

instance (c : Char) : Decidable (IsNoDigit c) :=
  inferInstanceAs (Decidable (∀ value < 16, _))

theorem digit?_eq_none
    {base : Nat}
    {c : Char}
    (hBase : base ≤ 16)
    (hOther : IsNoDigit c) :
    digit? base c = none := by
  rw [digit?, List.find?_eq_none]
  intro value hValue
  have hLess := List.mem_range.mp hValue
  simpa using hOther value (by omega)

/- Where the digits of a number have been read, the number is
reached. -/
theorem readNumber_toDigits_append
    {base : Nat}
    (hOne : 1 < base)
    (hBase : base ≤ 16)
    (n : Nat)
    (rest : List Char) :
    readNumber base 0 (Nat.toDigits base n ++ rest) =
      readNumber base n rest := by
  induction n using Nat.strongRecOn generalizing rest with
  | ind n ih =>
      by_cases hSmall : n < base
      · rw [Nat.toDigits_of_lt_base hSmall,
          List.singleton_append, readNumber,
          digit?_digitChar hBase hSmall]
        simp
      · have hLarge := Nat.not_lt.mp hSmall
        have hLess : n / base < n :=
          Nat.div_lt_self (by omega) hOne
        have hDigit : n % base < base :=
          Nat.mod_lt n (by omega)
        rw [Nat.toDigits_of_base_le hOne hLarge,
          List.append_assoc, ih (n / base) hLess,
          List.singleton_append, readNumber,
          digit?_digitChar hBase hDigit]
        simp only [Nat.div_add_mod']

/- A number ends in front of a character that is no digit. -/
theorem readNumber_toDigits
    (base : Nat)
    {rest : List Char}
    (hOne : 1 < base)
    (hBase : base ≤ 16)
    (hRest : ∀ c ∈ rest.head?, IsNoDigit c)
    (n : Nat) :
    readNumber base 0 (Nat.toDigits base n ++ rest) =
      (n, rest) := by
  rw [readNumber_toDigits_append hOne hBase]
  cases rest with
  | nil => rfl
  | cons c behind =>
      rw [readNumber, digit?_eq_none hBase (hRest c rfl)]

/- Digits are digits of their base. -/
theorem exists_digit_of_mem_toDigits
    {base n : Nat}
    {c : Char}
    (hOne : 1 < base)
    (hDigit : c ∈ Nat.toDigits base n) :
    ∃ value < base, c = value.digitChar := by
  induction n using Nat.strongRecOn with
  | ind n ih =>
      by_cases hSmall : n < base
      · rw [Nat.toDigits_of_lt_base hSmall,
          List.mem_singleton] at hDigit
        exact ⟨n, hSmall, hDigit⟩
      · have hLarge := Nat.not_lt.mp hSmall
        rw [Nat.toDigits_of_base_le hOne hLarge,
          List.mem_append, List.mem_singleton] at hDigit
        rcases hDigit with hFront | hLast
        · exact ih (n / base)
            (Nat.div_lt_self (by omega) hOne) hFront
        · exact ⟨n % base, Nat.mod_lt n (by omega), hLast⟩

------------------------------------------------------------
-- Characters
------------------------------------------------------------

/- The letters that stand for characters behind a backslash. -/
def letterEscapes : List (Char × Char) :=
  [('"', '"'), ('\\', '\\'), ('0', '\x00'), ('t', '\t'),
    ('n', '\n'), ('r', '\r')]

/- Read a code point between braces. -/
def readCode? : List Char → Option (Char × List Char)
| '\x7b' :: rest =>
    match readNumber 16 0 rest with
    | (code, '\x7d' :: behind) => some (Char.ofNat code, behind)
    | _ => none
| _ => none

/- Read one character of a quoted text. -/
def readCharacter? : List Char → Option (Char × List Char)
| '\\' :: letter :: rest =>
    match letterEscapes.lookup letter with
    | some c => some (c, rest)
    | none => if letter = 'u' then readCode? rest else none
| c :: rest =>
    if c = '\\' ∨ c = '"' then none else some (c, rest)
| [] => none

theorem length_of_readCode?
    {c : Char}
    {text rest : List Char}
    (hRead : readCode? text = some (c, rest)) :
    rest.length < text.length := by
  unfold readCode? at hRead
  split at hRead
  · rename_i digits
    have hLength := length_readNumber_le 16 0 digits
    split at hRead
    · rename_i code behind hNumber
      rw [hNumber] at hLength
      cases hRead
      rw [List.length_cons]
      exact Nat.lt_succ_of_lt hLength
    · cases hRead
  · cases hRead

/- A character that is read shortens the text. -/
theorem length_of_readCharacter?
    {c : Char}
    {text rest : List Char}
    (hRead : readCharacter? text = some (c, rest)) :
    rest.length < text.length := by
  unfold readCharacter? at hRead
  split at hRead
  · split at hRead
    · cases hRead
      exact Nat.lt_succ_of_lt (Nat.lt_succ_self _)
    · split at hRead
      · have hLength := length_of_readCode? hRead
        rw [List.length_cons, List.length_cons]
        omega
      · cases hRead
  · split at hRead
    · cases hRead
    · cases hRead
      exact Nat.lt_succ_self _
  · cases hRead

/-
  What is written for a character: a backslash and the letter
  that stands for it, or its code point, or the character
  itself, which then is neither a backslash nor a quote and
  can be printed.
-/
inductive IsEscape (c : Char) : List Char → Prop
| letter
    {letter : Char}
    (hLetter : letterEscapes.lookup letter = some c) :
    IsEscape c ['\\', letter]
| code :
    IsEscape c
      ('\\' :: 'u' :: '\x7b' ::
        (hexadecimal c.toNat ++ ['\x7d']))
| plain
    (hBackslash : c ≠ '\\')
    (hQuote : c ≠ '"')
    (hPrintable : isUnprintable c = false) :
    IsEscape c [c]

theorem isEscape_escape (c : Char) : IsEscape c (escape c) := by
  unfold escape
  split_ifs with hQuote hBackslash hNull hTab hLine hReturn
    hHidden
  · subst hQuote
    exact .letter rfl
  · subst hBackslash
    exact .letter rfl
  · subst hNull
    exact .letter rfl
  · subst hTab
    exact .letter rfl
  · subst hLine
    exact .letter rfl
  · subst hReturn
    exact .letter rfl
  · exact .code
  · exact .plain hBackslash hQuote (Bool.not_eq_true _ ▸ hHidden)

/- A code point is read as its character. -/
theorem readCode?_hexadecimal
    (c : Char)
    (rest : List Char) :
    readCode?
        ('\x7b' :: (hexadecimal c.toNat ++ '\x7d' :: rest)) =
      some (c, rest) := by
  have hBrace :
      ∀ other ∈ ('\x7d' :: rest).head?, IsNoDigit other := by
    rintro other ⟨⟩
    decide
  have hNumber := readNumber_toDigits 16 (by decide)
    (Nat.le_refl 16) hBrace c.toNat
  simp only [readCode?, hexadecimal, hNumber,
    Char.ofNat_toNat]

/- An escape is read as its character, whatever follows. -/
theorem readCharacter?_escape
    (c : Char)
    (rest : List Char) :
    readCharacter? (escape c ++ rest) = some (c, rest) := by
  have hEscape := isEscape_escape c
  generalize escape c = written at hEscape ⊢
  cases hEscape with
  | letter hLetter => simp [readCharacter?, hLetter]
  | code =>
      have hLetter : letterEscapes.lookup 'u' = none := rfl
      have hCode := readCode?_hexadecimal c rest
      simpa [readCharacter?, hLetter] using hCode
  | plain hBackslash hQuote hPrintable =>
      cases rest with
      | nil => simp [readCharacter?, hBackslash, hQuote]
      | cons next behind =>
          simp [readCharacter?, hBackslash, hQuote]

------------------------------------------------------------
-- Quoted Texts
------------------------------------------------------------

/- Read characters as long as there are any. A quote has to
stand behind them. -/
def readCharacters? (text : List Char) :
    Option (List Char × List Char) :=
  match _hRead : readCharacter? text with
  | some (c, behind) =>
      (readCharacters? behind).map fun read =>
        (c :: read.1, read.2)
  | none =>
      match text with
      | '"' :: rest => some ([], rest)
      | _ => none
termination_by text.length
decreasing_by exact length_of_readCharacter? _hRead

/- Read a text between quotes. -/
def readQuoted? : List Char → Option (String × List Char)
| '"' :: rest =>
    (readCharacters? rest).map fun read =>
      (String.ofList read.1, read.2)
| _ => none

theorem readCharacters?_of_some
    {c : Char}
    {text behind : List Char}
    (hRead : readCharacter? text = some (c, behind)) :
    readCharacters? text =
      (readCharacters? behind).map fun read =>
        (c :: read.1, read.2) := by
  rw [readCharacters?]
  split
  · rename_i other later hOther
    cases hRead.symm.trans hOther
    rfl
  · rename_i hNone
    cases hRead.symm.trans hNone

theorem readCharacters?_escapes
    (text rest : List Char) :
    readCharacters? (text.flatMap escape ++ '"' :: rest) =
      some (text, rest) := by
  induction text with
  | nil =>
      rw [List.flatMap_nil, List.nil_append,
        readCharacters?]
      rfl
  | cons c text ih =>
      have hRead := readCharacter?_escape c
        (text.flatMap escape ++ '"' :: rest)
      rw [List.flatMap_cons, List.append_assoc,
        readCharacters?_of_some hRead, ih]
      rfl

/- A quoted text is read as what it quotes, whatever
follows. -/
theorem readQuoted?_quote
    (text : String)
    (rest : List Char) :
    readQuoted? ((quote text).toList ++ rest) =
      some (text, rest) := by
  have hRead := readCharacters?_escapes text.toList rest
  simp [quote, readQuoted?, hRead]

------------------------------------------------------------
-- Line Breaks
------------------------------------------------------------

/- The characters that end a line: the line feed, the vertical
tab, the form feed, the carriage return, the next line control
and the separators of lines and of paragraphs. -/
def lineBreaks : List Char :=
  ['\n', '\x0B', '\x0C', '\r', '\u0085', '\u2028', '\u2029']

/- A character that ends a line. -/
def isLineBreak (c : Char) : Bool :=
  lineBreaks.contains c

/- Line breaks are not printable. -/
theorem isUnprintable_of_isLineBreak
    {c : Char}
    (hBreak : isLineBreak c = true) :
    isUnprintable c = true := by
  have hBreaks : lineBreaks.all isUnprintable = true := by
    decide
  exact List.all_eq_true.mp hBreaks c
    (List.contains_iff_mem.mp hBreak)

/- A text without line breaks is free of each. -/
theorem not_isLineBreak_of_any
    {text : List Char}
    (hNone : text.any isLineBreak = false) :
    ∀ c ∈ text, isLineBreak c = false := by
  simpa using hNone

/- No digit ends a line. -/
theorem not_isLineBreak_of_mem_toDigits
    {base n : Nat}
    {c : Char}
    (hOne : 1 < base)
    (hBase : base ≤ 16)
    (hDigit : c ∈ Nat.toDigits base n) :
    isLineBreak c = false := by
  have hDigits :
      ∀ value < 16, isLineBreak value.digitChar = false := by
    decide
  rcases exists_digit_of_mem_toDigits hOne hDigit with
    ⟨value, hValue, rfl⟩
  exact hDigits value (by omega)

/- No character is written across lines. -/
theorem not_isLineBreak_of_mem_escape (c : Char) :
    ∀ d ∈ escape c, isLineBreak d = false := by
  have hEscape := isEscape_escape c
  generalize escape c = written at hEscape ⊢
  cases hEscape with
  | @letter letter hLetter =>
      have hLetters :
          ∀ entry ∈ letterEscapes,
            isLineBreak entry.1 = false := by
        decide
      rcases List.lookup_eq_some_iff.mp hLetter with
        ⟨before, behind, hEntries, _⟩
      rw [List.forall_mem_cons, List.forall_mem_singleton]
      exact ⟨rfl, hLetters (letter, c) (by simp [hEntries])⟩
  | code =>
      simp only [List.forall_mem_cons,
        List.forall_mem_append]
      refine ⟨rfl, rfl, rfl, ?_, rfl, by simp⟩
      intro d hDigit
      exact not_isLineBreak_of_mem_toDigits (by decide)
        (Nat.le_refl 16) hDigit
  | plain _ _ hPrintable =>
      rw [List.forall_mem_singleton]
      cases hBreak : isLineBreak c with
      | false => rfl
      | true =>
          rw [isUnprintable_of_isLineBreak hBreak] at hPrintable
          cases hPrintable

/- A quoted text stands on one line. -/
theorem not_isLineBreak_of_mem_quote
    (text : String) :
    ∀ c ∈ (quote text).toList, isLineBreak c = false := by
  rw [quote, String.toList_ofList, List.cons_append,
    List.forall_mem_cons, List.forall_mem_append,
    List.forall_mem_singleton]
  refine ⟨rfl, ?_, rfl⟩
  intro c hMem
  rcases List.mem_flatMap.mp hMem with ⟨other, _, hEscape⟩
  exact not_isLineBreak_of_mem_escape other c hEscape

end Text

end Carnatic
