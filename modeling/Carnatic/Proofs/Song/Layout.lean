import Carnatic.Proofs.Song.Grammar

/-
  Songs laid out as tokens.

  Every balanced song is written by some tokens. Its layout
  puts braces and continuations where their item stands, and
  is read back as the same song.

  Main declarations:
    * `Song.layout`
    * `Song.writtenBy_layout`
    * `Song.ofTokens_iff_unique`
-/

------------------------------------------------------------
-- Layouts
------------------------------------------------------------

namespace Carnatic

namespace Svara

/- A hold for every unit of a svara behind the first. -/
def layout (svara : Svara) : List Token :=
  svara.token ::
    List.replicate (svara.duration - 1)
      ⟨.svaraName, continuation, svara.position⟩

theorem writtenBy_layout
    {svara : Svara}
    (hDuration : 1 ≤ svara.duration) :
    svara.WrittenBy svara.layout := by
  refine ⟨_, rfl, ?_, ?_⟩
  · intro hold hHold
    rw [List.eq_of_mem_replicate hHold]
    simp [Token.isContinuation]
  · rw [List.length_replicate]
    omega

end Svara

namespace Line

/- The svaras in braces and the gamakas in braces. -/
def layout (line : Line) : List Token :=
  ⟨.listStart, "\x7b", line.position⟩ ::
      line.svaras.flatMap Svara.layout ++
    ⟨.listEnd, "\x7d", line.position⟩ ::
      ⟨.listStart, "\x7b", line.position⟩ ::
        line.gamakas.map Gamaka.token ++
          [⟨.listEnd, "\x7d", line.position⟩]

end Line

namespace Song

/- The lines of a song one after the other. -/
def layout (song : Song) : List Token :=
  song.lines.flatMap Line.layout

end Song

theorem writtenInOrder_flatMap
    {α : Type}
    {writtenBy : α → List Token → Prop}
    {layout : α → List Token}
    {items : List α}
    (hLayout : ∀ item ∈ items, writtenBy item (layout item)) :
    WrittenInOrder writtenBy items
      (items.flatMap layout) := by
  induction items with
  | nil => exact .nil
  | cons item rest ih =>
      rw [List.flatMap_cons]
      refine .cons (hLayout item (by simp)) (ih ?_)
      intro other hOther
      exact hLayout other (List.mem_cons_of_mem item hOther)

theorem Line.writtenBy_layout
    {line : Line}
    (hBalanced : line.IsBalanced) :
    line.WrittenBy line.layout := by
  refine ⟨_, _, _, _, _, rfl, rfl, rfl, rfl, rfl, rfl, ?_⟩
  apply writtenInOrder_flatMap
  intro svara hSvara
  exact Svara.writtenBy_layout
    (hBalanced.duration_pos svara hSvara)

namespace Song

theorem writtenBy_layout
    {song : Song}
    (hBalanced : song.IsBalanced) :
    song.WrittenBy song.layout := by
  apply writtenInOrder_flatMap
  intro line hLine
  exact Line.writtenBy_layout (hBalanced line hLine)

------------------------------------------------------------
-- The Song Of Some Tokens
------------------------------------------------------------

/-
  The reader accepts a list of tokens with a song exactly when
  the song is balanced and the tokens write it. They write no
  other balanced song. Every balanced song has a layout, and
  all tokens that write it, its layout among them, are read
  back as the song.
-/
theorem ofTokens_iff_unique
    (tokens : List Token)
    (song : Song) :
    (ofTokens tokens = .ok song ↔
        song.IsBalanced ∧ song.WrittenBy tokens) ∧
      (song.IsBalanced ∧ song.WrittenBy tokens →
        ∀ other : Song,
          other.IsBalanced ∧ other.WrittenBy tokens →
            other = song) ∧
      (song.IsBalanced →
        song.WrittenBy song.layout ∧
          ofTokens song.layout = .ok song) := by
  refine ⟨ofTokens_eq_ok_iff, ?_, ?_⟩
  · intro hSong other hOther
    have hRead := ofTokens_eq_ok_iff.mpr hSong
    have hReadOther := ofTokens_eq_ok_iff.mpr hOther
    rw [hRead] at hReadOther
    exact (Except.ok.inj hReadOther).symm
  · intro hBalanced
    have hWritten := writtenBy_layout hBalanced
    exact ⟨hWritten,
      ofTokens_eq_ok_iff.mpr ⟨hBalanced, hWritten⟩⟩

/- A line that leads with a continuation and holds a svara,
and a line of no svaras. -/
def refrain : Song where
  lines :=
    [⟨[⟨",", 1, ⟨1, 3⟩⟩, ⟨"Sa", 3, ⟨1, 5⟩⟩],
        [⟨":kampita", ⟨2, 3⟩⟩, ⟨":flat", ⟨2, 12⟩⟩], ⟨1, 1⟩⟩,
      ⟨[], [], ⟨3, 1⟩⟩]

/- The refrain with its holds and braces where a singer would
put them. -/
def refrainTokens : List Token :=
  [⟨.listStart, "\x7b", ⟨1, 1⟩⟩, ⟨.svaraName, ",", ⟨1, 3⟩⟩,
    ⟨.svaraName, "Sa", ⟨1, 5⟩⟩, ⟨.svaraName, ",", ⟨1, 8⟩⟩,
    ⟨.svaraName, ",", ⟨1, 10⟩⟩, ⟨.listEnd, "\x7d", ⟨1, 12⟩⟩,
    ⟨.listStart, "\x7b", ⟨2, 1⟩⟩,
    ⟨.gamakaName, ":kampita", ⟨2, 3⟩⟩,
    ⟨.gamakaName, ":flat", ⟨2, 12⟩⟩,
    ⟨.listEnd, "\x7d", ⟨2, 18⟩⟩,
    ⟨.listStart, "\x7b", ⟨3, 1⟩⟩, ⟨.listEnd, "\x7d", ⟨3, 3⟩⟩,
    ⟨.listStart, "\x7b", ⟨3, 5⟩⟩, ⟨.listEnd, "\x7d", ⟨3, 7⟩⟩]

theorem ofTokens_iff_unique_refrain :
    (refrain.IsBalanced ∧ refrain.WrittenBy refrainTokens) ∧
      (∀ other : Song,
        other.IsBalanced ∧ other.WrittenBy refrainTokens →
          other = refrain) ∧
      ofTokens refrain.layout = .ok refrain := by
  rcases ofTokens_iff_unique refrainTokens refrain with
    ⟨hIff, hUnique, hLayout⟩
  have hRead : ofTokens refrainTokens = .ok refrain := by
    decide +kernel
  have hSong := hIff.mp hRead
  exact ⟨hSong, hUnique hSong, (hLayout hSong.1).2⟩

end Song

end Carnatic
