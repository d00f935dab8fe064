import Carnatic.Text.Combining
import Carnatic.Text.Unassigned

/-
  Characters that do not stand visibly on their own.

  Quoted text shows these by their code points instead of as
  they are.

  Key definitions include:
    * `Text.hiddenRanges`
    * `Text.isUnprintable`
-/

------------------------------------------------------------
-- Ranges Of Code Points
------------------------------------------------------------

namespace Carnatic

namespace Text

/-
  Control and format characters, separators other than the
  plain space, the fillers of Hangul syllables, and the
  private-use areas, as closed ranges in increasing order.
-/
def hiddenRanges : List (Nat × Nat) :=
  [(0x0, 0x1F), (0x7F, 0xA0), (0xAD, 0xAD), (0x600, 0x605),
    (0x61C, 0x61C), (0x6DD, 0x6DD), (0x70F, 0x70F),
    (0x890, 0x891), (0x8E2, 0x8E2), (0x115F, 0x1160),
    (0x1680, 0x1680), (0x180E, 0x180E), (0x2000, 0x200F),
    (0x2028, 0x202F), (0x205F, 0x2064), (0x2066, 0x206F),
    (0x3000, 0x3000), (0x3164, 0x3164), (0xE000, 0xF8FF),
    (0xFEFF, 0xFEFF), (0xFFA0, 0xFFA0), (0xFFF9, 0xFFFB),
    (0x110BD, 0x110BD), (0x110CD, 0x110CD),
    (0x13430, 0x1343F), (0x1BCA0, 0x1BCA3),
    (0x1D173, 0x1D17A), (0xE0001, 0xE0001),
    (0xE0020, 0xE007F), (0xF0000, 0xFFFFD),
    (0x100000, 0x10FFFD)]

/- A code point lies in one of the listed ranges. -/
def inRanges
    (ranges : List (Nat × Nat))
    (n : Nat) : Bool :=
  ranges.any fun range => range.1 ≤ n && n ≤ range.2

/-
  A character that quoted text shows by its code point. The
  printable part of ASCII is decided without the tables.
-/
def isUnprintable (c : Char) : Bool :=
  let n := c.toNat
  if 0x20 ≤ n && n ≤ 0x7E then
    false
  else
    inRanges hiddenRanges n || inRanges combiningRanges n ||
      inRanges unassignedRanges n

end Text

end Carnatic
