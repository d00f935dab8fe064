import Carnatic.Proofs.Reading.First
import Carnatic.Proofs.Text.Quoting
import Carnatic.Token

/-
  Lines of tokens.

  The line that is listed for a token names its class, quotes
  its word and tells its place. Nothing in it ends the line,
  and it is read back as the token, so no two tokens have the
  same line.

  Main declarations:
    * `Token.read?` and `Token.read?_render`
    * `Token.not_isLineBreak_of_mem_render`
    * `Token.HasOwnLine` and `Token.hasOwnLine`
-/

------------------------------------------------------------
-- Reading A Line
------------------------------------------------------------

namespace Carnatic

/- The class that a listing names. -/
def TokenKind.ofLabel? (label : List Char) : Option TokenKind :=
  [TokenKind.listStart, .listEnd, .svaraName, .gamakaName].find?
    fun kind => kind.label.toList = label

theorem TokenKind.ofLabel?_label (kind : TokenKind) :
    ofLabel? kind.label.toList = some kind := by
  cases kind <;> rfl

/- The name of a class goes up to the bracket behind it. -/
theorem TokenKind.takeWhile_dropWhile_label
    (kind : TokenKind)
    (rest : List Char) :
    (kind.label.toList ++ ("(".toList ++ rest)).takeWhile
          (· ≠ '(') =
        kind.label.toList ∧
      (kind.label.toList ++ ("(".toList ++ rest)).dropWhile
          (· ≠ '(') =
        "(".toList ++ rest := by
  have hLetters :
      kind.label.toList.all (· ≠ '(') = true := by
    cases kind <;> decide
  exact takeWhile_dropWhile_append
    (List.all_eq_true.mp hLetters)
    (by rintro c ⟨⟩; rfl)

/- What stands behind a text, if that is in front. -/
def Text.past?
    (front : String)
    (text : List Char) : Option (List Char) :=
  text.dropPrefix? front.toList

theorem Text.past?_append
    (front : String)
    (rest : List Char) :
    past? front (front.toList ++ rest) = some rest :=
  List.dropPrefix?_eq_some_iff.mpr
    ⟨front.toList, rfl, beq_self_eq_true _⟩

namespace Token

/- Read the line of a token, as far as it goes. -/
def read? (text : List Char) : Option (Token × List Char) := do
  let kind ←
    TokenKind.ofLabel? (text.takeWhile (· ≠ '('))
  let text ← Text.past? "(" (text.dropWhile (· ≠ '('))
  let (word, text) ← Text.readQuoted? text
  let text ← Text.past? ", line=" text
  let (line, text) := Text.readNumber 10 0 text
  let text ← Text.past? ", col=" text
  let (column, text) := Text.readNumber 10 0 text
  let text ← Text.past? ")" text
  some (⟨kind, word, ⟨line, column⟩⟩, text)

/- The characters of a token's line, one piece after the
other. -/
theorem toList_render_append
    (token : Token)
    (rest : List Char) :
    token.render.toList ++ rest =
      token.kind.label.toList ++
        ("(".toList ++
          ((Text.quote token.word).toList ++
            (", line=".toList ++
              (Nat.toDigits 10 token.position.line ++
                (", col=".toList ++
                  (Nat.toDigits 10 token.position.column ++
                    (")".toList ++ rest))))))) := by
  simp only [render, String.toList_append,
    List.append_assoc, toString, Nat.toList_repr]

/- The line of a token is read as the token, whatever
follows. -/
theorem read?_render
    (token : Token)
    (rest : List Char) :
    read? (token.render.toList ++ rest) =
      some (token, rest) := by
  have hComma :
      ∀ more, ∀ c ∈ (", col=".toList ++ more).head?,
        Text.IsNoDigit c := by
    rintro more c ⟨⟩
    decide
  have hBracket :
      ∀ more, ∀ c ∈ (")".toList ++ more).head?,
        Text.IsNoDigit c := by
    rintro more c ⟨⟩
    decide
  have hLine := fun more =>
    Text.readNumber_toDigits 10 (by decide) (by decide)
      (hComma more) token.position.line
  have hColumn := fun more =>
    Text.readNumber_toDigits 10 (by decide) (by decide)
      (hBracket more) token.position.column
  rw [toList_render_append, read?]
  simp only [TokenKind.takeWhile_dropWhile_label,
    TokenKind.ofLabel?_label, Text.past?_append,
    Text.readQuoted?_quote, hLine, hColumn,
    Option.bind_eq_bind, Option.bind_some]

------------------------------------------------------------
-- One Line For One Token
------------------------------------------------------------

/- Nothing in the line of a token ends it. -/
theorem not_isLineBreak_of_mem_render (token : Token) :
    ∀ c ∈ token.render.toList,
      Text.isLineBreak c = false := by
  have hLabel :
      token.kind.label.toList.any Text.isLineBreak =
        false := by
    cases token.kind <;> decide
  have hNumber :
      ∀ n, ∀ c ∈ Nat.toDigits 10 n,
        Text.isLineBreak c = false := by
    intro n c hDigit
    exact Text.not_isLineBreak_of_mem_toDigits (by decide)
      (by decide) hDigit
  rw [← List.append_nil token.render.toList,
    toList_render_append]
  simp only [List.forall_mem_append]
  exact ⟨Text.not_isLineBreak_of_any hLabel,
    Text.not_isLineBreak_of_any rfl,
    Text.not_isLineBreak_of_mem_quote token.word,
    Text.not_isLineBreak_of_any rfl, hNumber _,
    Text.not_isLineBreak_of_any rfl, hNumber _,
    Text.not_isLineBreak_of_any rfl, by simp⟩

theorem eq_of_render_eq
    {token other : Token}
    (hLine : token.render = other.render) :
    token = other := by
  have hToken := read?_render token []
  have hOther := read?_render other []
  rw [← hLine, hToken, Option.some.injEq,
    Prod.mk.injEq] at hOther
  exact hOther.1

/- The line of a token is one line, and that of no other
token. -/
structure HasOwnLine (token : Token) : Prop where
  unbroken :
    ∀ c ∈ token.render.toList, Text.isLineBreak c = false
  unique :
    ∀ other : Token, other.render = token.render →
      other = token

theorem hasOwnLine (token : Token) : token.HasOwnLine where
  unbroken := not_isLineBreak_of_mem_render token
  unique := by
    intro other hLine
    exact eq_of_render_eq hLine

/- A word that looks like the end of a line and goes on
behind a line break. -/
example :
    (Token.mk .gamakaName ":\", line=1\n" ⟨1, 3⟩).render =
      "OrnamentName(\":\\\", line=1\\n\", line=1, col=3)" := by
  decide +kernel

end Token

end Carnatic
