/-
  Places in a text.

  Lines count from one.  A column counts the characters of
  the line up to and including the one at the place, so
  column zero stands before the first character of a line.

  Key definitions include:
    * `Position`
    * `Position.origin`
    * `Position.advance`
    * `Position.after`
-/

------------------------------------------------------------
-- Positions
------------------------------------------------------------

namespace Carnatic

/- A line and a column of a text. -/
structure Position where
  line : Nat
  column : Nat
deriving DecidableEq, Repr, Inhabited

namespace Position

/- The place before any character has been read. -/
def origin : Position where
  line := 1
  column := 0

/- The place reached by reading one more character. -/
def advance
    (position : Position)
    (c : Char) : Position :=
  if c = '\n' then
    ⟨position.line + 1, 0⟩
  else
    ⟨position.line, position.column + 1⟩

/- The place reached by reading some more characters. -/
def after
    (position : Position)
    (characters : List Char) : Position :=
  characters.foldl advance position

@[simp]
theorem after_nil (position : Position) :
    position.after [] = position :=
  rfl

@[simp]
theorem after_cons
    (position : Position)
    (c : Char)
    (rest : List Char) :
    position.after (c :: rest) =
      (position.advance c).after rest :=
  rfl

/- A position as error texts lead with it: `line:column`. -/
def render (position : Position) : String :=
  s!"{position.line}:{position.column}"

end Position

end Carnatic
