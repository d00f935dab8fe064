import Carnatic.Proofs.Song.Grammar
import Carnatic.Proofs.Token.Scan

/-
  The tokens of a song and the words of its text.

  The svaras and gamakas of a song have their names and places
  from tokens that write it, and these are words of its text,
  one for one and in order. In front of the first svara there
  is nothing but braces: a line without svaras has no gamakas
  either.

  Main declarations:
    * `Word.IsToken` and `Token.AreWordsOf.exists_split`
    * `Token.IsBrace`
    * `WrittenInOrder.exists_of_mem`
    * `Song.token_mem_of_mem_svaras`
    * `Song.token_mem_of_mem_gamakas`
    * `Song.exists_braces_of_svaras`
-/

------------------------------------------------------------
-- Words Of Tokens
------------------------------------------------------------

namespace Carnatic

/- A word that is a token: its letters are of this class, and
text and place are the same. -/
def Word.IsToken
    (word : Word)
    (token : Token) : Prop :=
  token.kind.Admits word.letters ∧
    token.word = word.text ∧
    token.position = word.position

/- A token among others is a word among as many. -/
theorem Token.AreWordsOf.exists_split
    {text : String}
    {front behind : List Token}
    {token : Token}
    (hTokens : AreWordsOf (front ++ token :: behind) text) :
    ∃ words word later,
      wordsOf text = words ++ word :: later ∧
        List.Forall₂ Word.IsToken words front ∧
        word.IsToken token ∧
        List.Forall₂ Word.IsToken later behind := by
  rcases exists_split_of_forall₂ hTokens.flip with
    ⟨words, word, later, hWords, hFront, hWord, hLater⟩
  exact ⟨words, word, later, hWords, hFront.flip, hWord,
    hLater.flip⟩

/- What is paired has a partner. -/
theorem exists_of_forall₂_of_mem
    {α β : Type}
    {relation : α → β → Prop}
    {items : List α}
    {partners : List β}
    (hPairs : List.Forall₂ relation items partners)
    {item : α}
    (hItem : item ∈ items) :
    ∃ partner ∈ partners, relation item partner := by
  induction hPairs with
  | nil => simp at hItem
  | @cons first partner rest partners hFirst _ ih =>
      rcases List.mem_cons.mp hItem with rfl | hRest
      · exact ⟨partner, List.mem_cons_self, hFirst⟩
      · rcases ih hRest with ⟨other, hOther, hRelated⟩
        exact ⟨other, List.mem_cons_of_mem partner hOther,
          hRelated⟩

theorem Token.AreWordsOf.exists_word_of_mem
    {text : String}
    {tokens : List Token}
    (hTokens : AreWordsOf tokens text)
    {token : Token}
    (hToken : token ∈ tokens) :
    ∃ word ∈ wordsOf text, word.IsToken token := by
  rcases List.append_of_mem hToken with ⟨front, behind, rfl⟩
  rcases hTokens.exists_split with
    ⟨words, word, later, hWords, _, hWord, _⟩
  exact ⟨word, by simp [hWords], hWord⟩

------------------------------------------------------------
-- Braces
------------------------------------------------------------

/- A token that opens or closes a list. -/
def Token.IsBrace (token : Token) : Prop :=
  token.kind = .listStart ∨ token.kind = .listEnd

theorem TokenKind.letters_of_listStart
    {letters : List Char}
    (hAdmits : listStart.Admits letters) :
    letters = ['\x7b'] := by
  cases hAdmits
  rfl

theorem TokenKind.letters_of_listEnd
    {letters : List Char}
    (hAdmits : listEnd.Admits letters) :
    letters = ['\x7d'] := by
  cases hAdmits
  rfl

/- The letters of a brace. -/
theorem Word.IsToken.letters_of_isBrace
    {word : Word}
    {token : Token}
    (hWord : word.IsToken token)
    (hBrace : token.IsBrace) :
    word.letters = ['\x7b'] ∨ word.letters = ['\x7d'] := by
  have hAdmits := hWord.1
  rcases hBrace with hKind | hKind
  · rw [hKind] at hAdmits
    exact .inl (TokenKind.letters_of_listStart hAdmits)
  · rw [hKind] at hAdmits
    exact .inr (TokenKind.letters_of_listEnd hAdmits)

------------------------------------------------------------
-- Tokens Of Items
------------------------------------------------------------

/- Tokens that write items contain those that write each. -/
theorem WrittenInOrder.exists_of_mem
    {α : Type}
    {writtenBy : α → List Token → Prop}
    {items : List α}
    {tokens : List Token}
    (hWritten : WrittenInOrder writtenBy items tokens)
    {item : α}
    (hItem : item ∈ items) :
    ∃ own, own ⊆ tokens ∧ writtenBy item own := by
  induction hWritten with
  | nil => simp at hItem
  | @cons first rest own behind hFirst _ ih =>
      rcases List.mem_cons.mp hItem with rfl | hRest
      · exact ⟨own, List.subset_append_left own behind,
          hFirst⟩
      · rcases ih hRest with ⟨other, hOther, hOwn⟩
        exact ⟨other,
          List.subset_append_of_subset_right own hOther, hOwn⟩

namespace Line

variable {line : Line}
variable {own : List Token}

theorem token_mem_of_mem_svaras
    (hOwn : line.WrittenBy own)
    {svara : Svara}
    (hSvara : svara ∈ line.svaras) :
    svara.token ∈ own := by
  rcases hOwn with
    ⟨_, _, _, _, svaraTokens, rfl, _, _, _, _, _, hSvaras⟩
  rcases hSvaras.exists_of_mem hSvara with
    ⟨tokens, hTokens, holds, rfl, _⟩
  have hToken : svara.token ∈ svaraTokens :=
    hTokens List.mem_cons_self
  simp [hToken]

theorem token_mem_of_mem_gamakas
    (hOwn : line.WrittenBy own)
    {gamaka : Gamaka}
    (hGamaka : gamaka ∈ line.gamakas) :
    gamaka.token ∈ own := by
  rcases hOwn with ⟨_, _, _, _, svaraTokens, rfl, _⟩
  have hToken :
      gamaka.token ∈ line.gamakas.map Gamaka.token :=
    List.mem_map_of_mem hGamaka
  simp only [List.mem_append, List.mem_cons]
  tauto

end Line

namespace Song

variable {song : Song}
variable {tokens : List Token}

/- An item of a song belongs to one of its lines, which some
of the tokens write. -/
theorem exists_line_of_mem_flatMap
    {α : Type}
    {items : Line → List α}
    (hWritten : song.WrittenBy tokens)
    {item : α}
    (hItem : item ∈ song.lines.flatMap items) :
    ∃ (line : Line) (own : List Token),
      item ∈ items line ∧
        line.WrittenBy own ∧
        own ⊆ tokens := by
  rcases List.mem_flatMap.mp hItem with ⟨line, hLine, hOf⟩
  rcases WrittenInOrder.exists_of_mem hWritten hLine with
    ⟨own, hSubset, hOwn⟩
  exact ⟨line, own, hOf, hOwn, hSubset⟩

theorem token_mem_of_mem_svaras
    (hWritten : song.WrittenBy tokens)
    {svara : Svara}
    (hSvara : svara ∈ song.svaras) :
    svara.token ∈ tokens := by
  rcases exists_line_of_mem_flatMap hWritten hSvara with
    ⟨line, own, hOf, hOwn, hSubset⟩
  exact hSubset (Line.token_mem_of_mem_svaras hOwn hOf)

theorem token_mem_of_mem_gamakas
    (hWritten : song.WrittenBy tokens)
    {gamaka : Gamaka}
    (hGamaka : gamaka ∈ song.gamakas) :
    gamaka.token ∈ tokens := by
  rcases exists_line_of_mem_flatMap hWritten hGamaka with
    ⟨line, own, hOf, hOwn, hSubset⟩
  exact hSubset (Line.token_mem_of_mem_gamakas hOwn hOf)

end Song

------------------------------------------------------------
-- The First Svara
------------------------------------------------------------

namespace Line

/- A balanced line without svaras is four braces. -/
theorem isBrace_of_svaras_nil
    {line : Line}
    {own : List Token}
    (hBalanced : line.IsBalanced)
    (hOwn : line.WrittenBy own)
    (hNone : line.svaras = []) :
    ∀ token ∈ own, token.IsBrace := by
  have hGamakas : line.gamakas = [] := by
    rw [← List.length_eq_zero_iff, ← hBalanced.length_eq,
      hNone, List.length_nil]
  rcases hOwn with
    ⟨first, firstEnd, second, secondEnd, svaraTokens, rfl,
      hFirst, _, hFirstEnd, hSecond, hSecondEnd, hSvaras⟩
  rw [hNone] at hSvaras
  cases hSvaras
  simp [hGamakas, Token.IsBrace, hFirst, hFirstEnd, hSecond,
    hSecondEnd]

/- The first svara of a line stands behind one brace. -/
theorem exists_brace_of_svaras_cons
    {line : Line}
    {own : List Token}
    (hOwn : line.WrittenBy own)
    {first : Svara}
    {rest : List Svara}
    (hSvaras : line.svaras = first :: rest) :
    ∃ brace later,
      own = brace :: first.token :: later ∧
        brace.IsBrace := by
  rcases hOwn with
    ⟨brace, _, _, _, svaraTokens, rfl, hKind, _, _, _, _,
      hWritten⟩
  rw [hSvaras] at hWritten
  cases hWritten with
  | cons hFirst _ =>
      rcases hFirst with ⟨holds, rfl, _⟩
      exact ⟨brace, _, rfl, .inl hKind⟩

end Line

/- The first svara of some lines stands behind braces only. -/
theorem Song.exists_braces_of_svaras
    {song : Song}
    {tokens : List Token}
    (hBalanced : song.IsBalanced)
    (hWritten : song.WrittenBy tokens)
    {first : Svara}
    {rest : List Svara}
    (hSvaras : song.svaras = first :: rest) :
    ∃ front behind,
      tokens = front ++ first.token :: behind ∧
        ∀ token ∈ front, token.IsBrace := by
  rcases song with ⟨lines⟩
  change WrittenInOrder Line.WrittenBy lines tokens at hWritten
  change ∀ line ∈ lines, line.IsBalanced at hBalanced
  change lines.flatMap Line.svaras = first :: rest at hSvaras
  induction hWritten with
  | nil => simp at hSvaras
  | @cons line later own behind hOwn _ ih =>
      rcases List.forall_mem_cons.mp hBalanced with
        ⟨hLine, hLater⟩
      rw [List.flatMap_cons] at hSvaras
      cases hNone : line.svaras with
      | nil =>
          rw [hNone, List.nil_append] at hSvaras
          rcases ih hLater hSvaras with
            ⟨front, after, rfl, hFront⟩
          refine ⟨own ++ front, after, by simp, ?_⟩
          intro token hToken
          rcases List.mem_append.mp hToken with
            hHere | hThere
          · exact Line.isBrace_of_svaras_nil hLine hOwn hNone
              token hHere
          · exact hFront token hThere
      | cons svara svaras =>
          rw [hNone, List.cons_append,
            List.cons.injEq] at hSvaras
          rcases hSvaras with ⟨rfl, _⟩
          rcases Line.exists_brace_of_svaras_cons hOwn
              hNone with
            ⟨brace, after, rfl, hBrace⟩
          exact ⟨[brace], after ++ behind, rfl, by simpa⟩

end Carnatic
