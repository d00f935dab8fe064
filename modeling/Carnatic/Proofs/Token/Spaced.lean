import Carnatic.Proofs.Rendition.Layout
import Carnatic.Proofs.Song.Tokens
import Carnatic.Proofs.Text.Places
import Carnatic.Proofs.Text.Replacing
import Carnatic.Settings

/-
  Names that stand between spaces.

  A word ends at the first blank. So a name without blanks is
  a word of every text in which it stands between spaces, and
  the words around it are those of the texts there. When it
  leads with a colon, it is a gamaka name. A name with a blank
  is no word of any text.

  Main declarations:
    * `Text.IsUnbroken` and `Text.spaced`
    * `Word.Follow` and `Word.exists_follow`
    * `Token.IsOneToken` and `Token.isOneToken`
    * `Token.word_ne_of_not_isUnbroken`
-/

------------------------------------------------------------
-- Words Between Spaces
------------------------------------------------------------

namespace Carnatic

namespace Text

/- A name without blanks. -/
def IsUnbroken (name : String) : Prop :=
  ∀ c ∈ name.toList, isBlank c = false

instance (name : String) : Decidable (IsUnbroken name) :=
  decidable_of_iff (!name.toList.any isBlank)
    (by simp [IsUnbroken])

/- A text in which a name stands between spaces. -/
def spaced (front name behind : String) : String :=
  front ++ " " ++ name ++ " " ++ behind

theorem toList_spaced (front name behind : String) :
    (spaced front name behind).toList =
      front.toList ++
        ([' '] ++ (name.toList ++ ' ' :: behind.toList)) := by
  simp [spaced]

/- The place of a name behind a front and a space. -/
def placeBehind (front : String) : Position where
  line := (Position.counted front.toList).line
  column := (Position.counted front.toList).column + 2

end Text

namespace Word

/- A name as a word behind a front and a space. -/
def spaced (front name : String) : Word where
  before := front.toList ++ [' ']
  letters := name.toList
  behind := []

theorem position_spaced (front name : String) :
    (spaced front name).position = Text.placeBehind front := by
  rw [position_eq, spaced, Position.counted_concat]
  rfl

/- Words behind a name that stands between spaces: those of
the text are the ones in front of the name, the name and
these, which are spelled as in the text behind it. -/
structure Follow
    (later : List Word)
    (front name behind : String) : Prop where
  words_eq :
    (wordsOf (Text.spaced front name behind)).map alone =
      (wordsOf front ++ spaced front name :: later).map alone
  texts_eq : later.map text = (wordsOf behind).map text

/- A name without blanks is one of the words. -/
theorem exists_follow
    {name : String}
    (hSome : name.toList ≠ [])
    (hUnbroken : Text.IsUnbroken name)
    (front behind : String) :
    ∃ later, Follow later front name behind := by
  have hSpace : Text.isBlank ' ' = true := by decide
  have hName :
      IsIn
        ⟨front.toList ++ [' '], name.toList,
          ' ' :: behind.toList⟩
        (front.toList ++ [' '] ++ name.toList ++
          ' ' :: behind.toList) :=
    { text_eq := rfl
      letters_ne_nil := hSome
      not_isBlank := hUnbroken
      isBlank_before := by simp [hSpace]
      isBlank_behind := by simp [hSpace] }
  have hFront :
      IsCut ([] ++ front.toList)
        ([' '] ++ (name.toList ++ ' ' :: behind.toList)) :=
    .inr (by simp [hSpace])
  have hBehind :
      IsCut (front.toList ++ [' '] ++ name.toList ++ [' '])
        behind.toList :=
    .inl (by
      rw [IsSettled, List.getLast?_concat]
      simp [hSpace])
  have hLater :
      wordsBehind (front.toList ++ [' '] ++ name.toList)
          ([' '] ++ behind.toList) =
        wordsBehind
          (front.toList ++ [' '] ++ name.toList ++ [' '])
          behind.toList :=
    wordsBehind_append_blanks (by simp [hSpace])
  refine ⟨_, ?_, map_text_wordsBehind_of_isCut hBehind⟩
  rw [wordsOf, Text.toList_spaced, wordsBehind_append hFront,
    wordsBehind_append_blanks (by simp [hSpace]),
    List.nil_append, hName.wordsBehind_eq, ← hLater]
  simp only [List.map_append, List.map_cons]
  rfl

end Word

------------------------------------------------------------
-- Tokens Between Spaces
------------------------------------------------------------

/- A gamaka name as a token behind a front and a space. -/
def Token.spaced (front name : String) : Token where
  kind := .gamakaName
  word := name
  position := Text.placeBehind front

theorem Settings.head?_of_isGamakaName
    {name : String}
    (hName : isGamakaName name = true) :
    name.toList.head? = some ':' :=
  decide_eq_true_iff.mp hName

/- A gamaka name leads with a colon, so it is a token. -/
theorem Word.token_spaced
    {name : String}
    (hName : Settings.isGamakaName name = true)
    (front : String) :
    (spaced front name).token =
      .ok (Token.spaced front name) := by
  rcases List.head?_eq_some_iff.mp
      (Settings.head?_of_isGamakaName hName) with
    ⟨rest, hLetters⟩
  have hKind :
      TokenKind.gamakaName.Admits
        (spaced front name).letters := by
    rw [spaced, hLetters]
    exact .gamakaName rest
  rw [token_of_admits hKind, position_spaced, text, spaced,
    String.ofList_toList]
  rfl

namespace Token

/-
  A name that is one token wherever it stands between spaces.
  The text has tokens exactly when those around the name have
  some. In front of the name they are those of the front, and
  behind it those of the other text, at other places. The
  token of the name is answered also where words behind it
  have no class.
-/
structure IsOneToken (name : String) : Prop where
  exists_iff :
    ∀ front behind,
      (∃ tokens,
          ofText (Text.spaced front name behind) =
            .ok tokens) ↔
        (∃ own, ofText front = .ok own) ∧
          ∃ others, ofText behind = .ok others
  tokens_eq :
    ∀ front behind own others,
      ofText front = .ok own →
        ofText behind = .ok others →
          ∃ more,
            ofText (Text.spaced front name behind) =
                .ok (own ++ spaced front name :: more) ∧
              more.map bare = others.map bare
  answer_eq :
    ∀ front behind own,
      ofText front = .ok own →
        (Scanner.ofText
            (Text.spaced front name behind)).answer
              own.length =
          some (.ok (spaced front name))

section Named

variable {name : String}
variable {front behind : String}
variable {later : List Word}

/- The tokens of the text are read one after the other. -/
theorem ofText_spaced_eq
    (hFollow : Word.Follow later front name behind) :
    ofText (Text.spaced front name behind) =
      (wordsOf front ++ Word.spaced front name :: later).mapM
        Word.token := by
  rw [ofText_eq_mapM, Word.mapM_token_alone,
    hFollow.words_eq, ← Word.mapM_token_alone]

/- The words behind the name are read as those of the text
there. -/
theorem unplaced_later
    (hFollow : Word.Follow later front name behind) :
    unplaced (List.map bare) (later.mapM Word.token) =
      unplaced (List.map bare) (ofText behind) := by
  rw [ofText_eq_mapM]
  exact Word.ignoresPlaces_token.mapM _ _ hFollow.texts_eq

theorem exists_ofText_spaced_iff
    (hName : Settings.isGamakaName name = true)
    (hFollow : Word.Follow later front name behind) :
    (∃ tokens,
        ofText (Text.spaced front name behind) =
          .ok tokens) ↔
      (∃ own, ofText front = .ok own) ∧
        ∃ others, ofText behind = .ok others := by
  have hBehind :
      (∃ more, later.mapM Word.token = .ok more) ↔
        ∃ others, ofText behind = .ok others := by
    rcases unplaced_eq_iff.mp (unplaced_later hFollow) with
      ⟨more, others, hMore, hOthers, _⟩ |
        ⟨error, fault, hError, hFault, _⟩
    · simp [hMore, hOthers]
    · simp [hError, hFault]
  rw [← hBehind, ofText_spaced_eq hFollow, ofText_eq_mapM,
    exists_mapM_iff, exists_mapM_iff, exists_mapM_iff,
    List.forall_mem_append, List.forall_mem_cons]
  simp [Word.token_spaced hName front]

theorem exists_ofText_spaced
    {own others : List Token}
    (hName : Settings.isGamakaName name = true)
    (hFollow : Word.Follow later front name behind)
    (hOwn : ofText front = .ok own)
    (hOthers : ofText behind = .ok others) :
    ∃ more,
      ofText (Text.spaced front name behind) =
          .ok (own ++ spaced front name :: more) ∧
        more.map bare = others.map bare := by
  have hSame := unplaced_later hFollow
  rw [hOthers] at hSame
  rcases unplaced_eq_iff.mp hSame with
    ⟨more, _, hMore, hRead, hBare⟩ | ⟨_, _, _, hError, _⟩
  · rw [Except.ok.injEq] at hRead
    subst hRead
    refine ⟨more, ?_, hBare⟩
    rw [ofText_eq_mapM, mapM_eq_ok_iff] at hOwn
    rw [mapM_eq_ok_iff] at hMore
    rw [ofText_spaced_eq hFollow, mapM_eq_ok_iff]
    exact List.rel_append hOwn
      (.cons (Word.token_spaced hName front) hMore)
  · cases hError

/- The name is answered in its turn. What stands behind a word
does not matter for its token. -/
theorem answer_spaced
    {own : List Token}
    (hName : Settings.isGamakaName name = true)
    (hFollow : Word.Follow later front name behind)
    (hOwn : ofText front = .ok own) :
    (Scanner.ofText (Text.spaced front name behind)).answer
        own.length =
      some (.ok (spaced front name)) := by
  rw [ofText_eq_mapM] at hOwn
  have hLength : (wordsOf front).length = own.length :=
    (mapM_eq_ok_iff.mp hOwn).length_eq
  have hRead :
      ((wordsOf (Text.spaced front name behind)).take
          own.length).mapM Word.token =
        .ok own := by
    rw [Word.mapM_token_alone, List.map_take,
      hFollow.words_eq, ← List.map_take,
      ← Word.mapM_token_alone, ← hLength, List.take_left,
      hOwn]
  have hKinds :
      ∀ earlier ∈
        (wordsOf (Text.spaced front name behind)).take
          own.length,
          earlier.HasKind := by
    intro earlier hEarlier
    exact Word.hasKind_iff.mp
      (exists_mapM_iff.mp ⟨own, hRead⟩ earlier hEarlier)
  have hAlone :
      ((wordsOf (Text.spaced front name behind)).map
          Word.alone)[own.length]? =
        some (Word.spaced front name).alone := by
    rw [hFollow.words_eq, ← hLength, List.getElem?_map,
      List.getElem?_append_right (Nat.le_refl _)]
    simp
  rw [List.getElem?_map, Option.map_eq_some_iff] at hAlone
  rcases hAlone with ⟨word, hWord, hSame⟩
  have hToken := congrArg Word.token hSame
  change word.token = (Word.spaced front name).token at hToken
  rw [(Scanner.answer_of_getElem? (Scanner.awaits_ofText _)
    hWord hKinds).1, hToken, Word.token_spaced hName front]

/- A gamaka name without blanks is one token. -/
theorem isOneToken
    (hName : Settings.isGamakaName name = true)
    (hUnbroken : Text.IsUnbroken name) :
    IsOneToken name := by
  have hSome : name.toList ≠ [] := by
    intro hNone
    have hHead := Settings.head?_of_isGamakaName hName
    simp [hNone] at hHead
  have hWords := Word.exists_follow hSome hUnbroken
  constructor
  case exists_iff =>
    intro front behind
    rcases hWords front behind with ⟨later, hFollow⟩
    exact exists_ofText_spaced_iff hName hFollow
  case tokens_eq =>
    intro front behind own others hOwn hOthers
    rcases hWords front behind with ⟨later, hFollow⟩
    exact exists_ofText_spaced hName hFollow hOwn hOthers
  case answer_eq =>
    intro front behind own hOwn
    rcases hWords front behind with ⟨later, hFollow⟩
    exact answer_spaced hName hFollow hOwn

end Named

/- A name with a blank is no token of any text. -/
theorem word_ne_of_not_isUnbroken
    {name text : String}
    {tokens : List Token}
    (hBroken : ¬ Text.IsUnbroken name)
    (hTokens : ofText text = .ok tokens)
    {token : Token}
    (hToken : token ∈ tokens) :
    token.word ≠ name := by
  rintro rfl
  rcases (ofText_eq_ok_iff.mp hTokens).exists_word_of_mem
      hToken with
    ⟨word, hWord, _, hText, _⟩
  apply hBroken
  intro c hLetter
  rw [hText, Word.text, String.toList_ofList] at hLetter
  exact (mem_wordsOf_iff.mp hWord).not_isBlank c hLetter

end Token

end Carnatic
