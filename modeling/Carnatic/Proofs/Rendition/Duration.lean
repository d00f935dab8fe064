import Carnatic.Proofs.Performance.Schedule
import Carnatic.Proofs.Rendition.Tune
import Carnatic.Proofs.Song.Music
import Carnatic.Proofs.Song.Place
import Carnatic.Proofs.Token.Scan
import Mathlib.Algebra.BigOperators.Group.List.Basic
import Mathlib.Algebra.GroupWithZero.Nat

/-
  How long a text sounds.

  Every word of a svara's class takes one unit of time: a name
  as the first unit of its svara, a continuation as a hold or
  as the first unit of another one. The units are counted from
  the words to the tokens, the durations of svaras, the ticks
  of segments and at last the bends and deltas of events.

  Main declarations:
    * `TokenKind.countIn` and `Token.count`
    * `Song.count_of_writtenBy`
    * `Performance.lengthOf_eq_mul`
    * `Performance.countBends_of_ofSegments`
    * `Rendition.takesUnits_of_ofText`
-/

------------------------------------------------------------
-- Words And Tokens
------------------------------------------------------------

namespace Carnatic

namespace TokenKind

instance
    (kind : TokenKind)
    (letters : List Char) :
    Decidable (kind.Admits letters) :=
  decidable_of_iff _ ofWord?_eq_some_iff

/- The number of words of a class in a text. -/
def countIn
    (kind : TokenKind)
    (text : String) : Nat :=
  (wordsOf text).countP fun word => kind.Admits word.letters

end TokenKind

namespace Token

/- The number of tokens of a class. -/
def count
    (kind : TokenKind)
    (tokens : List Token) : Nat :=
  tokens.countP fun token => token.kind = kind

/- The tokens of a text are of the classes of its words. -/
theorem count_of_areWordsOf
    {tokens : List Token}
    {text : String}
    (hTokens : AreWordsOf tokens text)
    (kind : TokenKind) :
    count kind tokens = kind.countIn text := by
  unfold count TokenKind.countIn
  unfold AreWordsOf at hTokens
  generalize wordsOf text = words at hTokens ⊢
  induction hTokens with
  | nil => rfl
  | @cons word token words tokens hToken _ ih =>
      have hSame :
          token.kind = kind ↔ kind.Admits word.letters := by
        constructor
        · rintro rfl
          exact hToken.1
        · intro hKind
          exact hToken.1.unique hKind
      simp only [List.countP_cons, ih, hSame]

@[simp]
theorem count_append
    (kind : TokenKind)
    (first second : List Token) :
    count kind (first ++ second) =
      count kind first + count kind second :=
  List.countP_append

@[simp]
theorem count_nil (kind : TokenKind) :
    count kind [] = 0 :=
  rfl

@[simp]
theorem count_cons
    (kind : TokenKind)
    (token : Token)
    (rest : List Token) :
    count kind (token :: rest) =
      count kind rest + if token.kind = kind then 1 else 0 := by
  simp [count, List.countP_cons]

/- Where all tokens are of one class, they are counted for
this class only. -/
theorem count_of_kind
    {kind : TokenKind}
    {tokens : List Token}
    (hKind : ∀ token ∈ tokens, token.kind = kind)
    (other : TokenKind) :
    count other tokens =
      if kind = other then tokens.length else 0 := by
  induction tokens with
  | nil => simp
  | cons token rest ih =>
      rcases List.forall_mem_cons.mp hKind with
        ⟨hToken, hRest⟩
      rw [count_cons, ih hRest, hToken]
      split <;> simp

end Token

------------------------------------------------------------
-- Tokens And Songs
------------------------------------------------------------

/- Tokens that write items one after the other are counted
item by item. -/
theorem count_of_writtenInOrder
    {α : Type}
    {writtenBy : α → List Token → Prop}
    {units : α → Nat}
    {kind : TokenKind}
    {items : List α}
    {tokens : List Token}
    (hWritten : WrittenInOrder writtenBy items tokens)
    (hUnits :
      ∀ item own,
        writtenBy item own →
          Token.count kind own = units item) :
    Token.count kind tokens = (items.map units).sum := by
  induction hWritten with
  | nil => rfl
  | cons hItem _ ih =>
      rw [Token.count_append, hUnits _ _ hItem, ih,
        List.map_cons, List.sum_cons]

/- A svara is written by a name for every unit. -/
theorem Svara.count_of_writtenBy
    {svara : Svara}
    {own : List Token}
    (hWritten : svara.WrittenBy own)
    (kind : TokenKind) :
    Token.count kind own =
      if .svaraName = kind then svara.duration else 0 := by
  rcases hWritten with ⟨holds, rfl, hHolds, hDuration⟩
  have hKind :
      ∀ token ∈ svara.token :: holds,
        token.kind = .svaraName := by
    refine List.forall_mem_cons.mpr ⟨rfl, ?_⟩
    intro hold hHold
    exact Line.kind_of_isContinuation (hHolds hold hHold)
  rw [Token.count_of_kind hKind, List.length_cons, hDuration]

namespace Line

/- The tokens of a line are its braces, a name for every unit
of its svaras, and a name for every gamaka. -/
theorem count_of_writtenBy
    {line : Line}
    {own : List Token}
    (hWritten : line.WrittenBy own) :
    Token.count .svaraName own =
        (line.svaras.map Svara.duration).sum ∧
      Token.count .gamakaName own = line.gamakas.length := by
  rcases hWritten with
    ⟨first, firstEnd, second, secondEnd, svaraTokens, rfl,
      hFirst, _, hFirstEnd, hSecond, hSecondEnd, hSvaras⟩
  have hSvaraTokens := fun kind : TokenKind =>
    count_of_writtenInOrder hSvaras
      fun svara own hOwn =>
        Svara.count_of_writtenBy hOwn kind
  have hGamakaKind :
      ∀ token ∈ line.gamakas.map Gamaka.token,
        token.kind = .gamakaName := by
    simp [Gamaka.token]
  have hGamakaTokens := Token.count_of_kind hGamakaKind
  simp [hFirst, hFirstEnd, hSecond, hSecondEnd,
    hSvaraTokens, hGamakaTokens]

end Line

namespace Song

/- The tokens of a song count its units and its gamakas. -/
theorem count_of_writtenBy
    {song : Song}
    {tokens : List Token}
    (hWritten : song.WrittenBy tokens) :
    Token.count .svaraName tokens =
        (song.svaras.map Svara.duration).sum ∧
      Token.count .gamakaName tokens =
        song.gamakas.length := by
  constructor
  · rw [count_of_writtenInOrder hWritten
      fun line own hOwn => (Line.count_of_writtenBy hOwn).1]
    simp [svaras, List.flatMap, List.sum_flatten,
      List.map_flatten, Function.comp_def]
  · rw [count_of_writtenInOrder hWritten
      fun line own hOwn => (Line.count_of_writtenBy hOwn).2]
    simp [gamakas, List.length_flatMap]

end Song

------------------------------------------------------------
-- Tunes And Events
------------------------------------------------------------

variable {R : Type} [Scalar R]

namespace Midi

/- A message that moves the wheel. -/
def Message.isBend : Message → Bool
| .pitchBend _ => true
| _ => false

/- The number of bends in a stream. -/
def countBends (events : List Event) : Nat :=
  events.countP fun event => event.message.isBend

/- Absolute ticks change no message. -/
theorem map_message_timedFrom
    (clock : Nat)
    (events : List Event) :
    (timedFrom clock events).map Timed.message =
      events.map Event.message := by
  induction events generalizing clock with
  | nil => rfl
  | cons event rest ih => simp [timedFrom, ih]

theorem countBends_eq_timed (events : List Event) :
    countBends events =
      ((timed events).map Timed.message).countP
        Message.isBend := by
  rw [timed, map_message_timedFrom, List.countP_map]
  rfl

end Midi

namespace Performance

/- A change of notes bends nothing. -/
theorem countP_isBend_changeTo
    (velocity note : UInt8)
    (sounding : Option UInt8) :
    (changeTo velocity note sounding).countP
      Midi.Message.isBend = 0 := by
  cases sounding with
  | none => rfl
  | some old =>
      by_cases hSame : old = note
      · simp [changeTo, hSame]
      · simp [changeTo, hSame, Midi.Message.isBend]

/- Segments whose lengths are not cut off take the ticks of
their units. -/
theorem lengthOf_eq_mul
    {settings : Settings R}
    {tune : List (Segment R)}
    (hFits :
      ∀ segment ∈ tune,
        segment.duration * settings.ticksPerUnit.toNat <
          UInt32.size) :
    lengthOf settings tune =
      settings.ticksPerUnit.toNat *
        (tune.map Segment.duration).sum := by
  induction tune with
  | nil => rfl
  | cons segment rest ih =>
      rcases List.forall_mem_cons.mp hFits with
        ⟨hSegment, hRest⟩
      have hTicks :
          ticksOf settings segment =
            segment.duration *
              settings.ticksPerUnit.toNat :=
        Nat.min_eq_left (Nat.le_sub_one_of_lt hSegment)
      rw [lengthOf, ih hRest, hTicks, List.map_cons,
        List.sum_cons, Nat.mul_add,
        Nat.mul_comm segment.duration]

/- A passage bends once a tick. -/
theorem countP_isBend_passage
    (settings : Settings R)
    (before : List (Segment R))
    (segment : Segment R) :
    ((passage settings before segment).map
        Midi.Timed.message).countP Midi.Message.isBend =
      ticksOf settings segment := by
  have hChange := countP_isBend_changeTo settings.velocity
    (noteNumber settings segment)
    (before.getLast?.map (noteNumber settings))
  simp [passage, Function.comp_def, hChange,
    List.countP_map, Midi.Message.isBend]

/- So do all passages of a tune. -/
theorem countP_isBend_passages
    (settings : Settings R)
    (tune : List (Segment R)) :
    ((passages settings tune).map
        Midi.Timed.message).countP Midi.Message.isBend =
      lengthOf settings tune := by
  induction tune using List.reverseRecOn with
  | nil => rfl
  | append_singleton before segment ih =>
      rw [passages_concat, List.map_append,
        List.countP_append, ih, countP_isBend_passage,
        lengthOf_append, lengthOf_singleton]

/- The setup and the end of a tune bend nothing. -/
theorem countP_isBend_schedule
    (settings : Settings R)
    (tune : List (Segment R)) :
    ((schedule settings tune).map
        Midi.Timed.message).countP Midi.Message.isBend =
      lengthOf settings tune := by
  have hOpening :
      ((opening settings).map
        Midi.Timed.message).countP
          Midi.Message.isBend = 0 := by
    rfl
  have hClosing :
      ((closing settings tune).map
        Midi.Timed.message).countP
          Midi.Message.isBend = 0 := by
    cases hLast : tune.getLast? <;>
      simp [closing, hLast, Midi.Message.isBend]
  rw [schedule, List.map_append, List.map_append,
    List.countP_append, List.countP_append, hOpening,
    hClosing, countP_isBend_passages, Nat.zero_add,
    Nat.add_zero]

/- A tune bends once a tick, and lasts for all its ticks. -/
theorem countBends_of_ofSegments
    {settings : Settings R}
    {tune : List (Segment R)}
    {events : List Midi.Event}
    (hTune : ofSegments settings tune = .ok events) :
    Midi.countBends events = lengthOf settings tune ∧
      Midi.elapsed events = lengthOf settings tune := by
  rcases exists_hasPlayed_of_ofSegments hTune with
    ⟨final, _, hPlayed, rfl⟩
  refine ⟨?_, hPlayed.elapsed_finish⟩
  rw [Midi.countBends_eq_timed, hPlayed.timed_finish,
    countP_isBend_schedule]

end Performance

------------------------------------------------------------
-- Units Of A Text
------------------------------------------------------------

namespace Rendition

/- What it means that a rendition takes one unit for every
svara and hold of its text, and one segment for every
gamaka. -/
structure TakesUnits
    (settings : Settings R)
    (text : String)
    (rendition : Rendition) : Prop where
  elapsed_eq :
    Midi.elapsed rendition.events =
      settings.ticksPerUnit.toNat *
        TokenKind.svaraName.countIn text
  countBends_eq :
    Midi.countBends rendition.events =
      settings.ticksPerUnit.toNat *
        TokenKind.svaraName.countIn text
  segmentCount_eq :
    rendition.segmentCount =
      TokenKind.gamakaName.countIn text

/- Every text that is rendered takes one unit for a svara or
hold, as long as no svara is too long for a segment. -/
theorem takesUnits_of_ofText
    (settings : Settings R)
    (registry : Registry R)
    (text : String)
    (song : Song)
    (rendition : Rendition)
    (hSong : Song.ofText text = .ok song)
    (hFits :
      ∀ svara ∈ song.svaras,
        svara.duration * settings.ticksPerUnit.toNat <
          UInt32.size)
    (hText :
      ofText settings registry text = .ok rendition) :
    TakesUnits settings text rendition := by
  rcases ofText_eq_ok_iff.mp hText with
    ⟨tune, hTune, hEvents, hCount⟩
  rcases Segment.ofText_eq_ok_iff.mp hTune with
    ⟨written, hWritten, hSegments⟩
  rw [hSong, Except.ok.injEq] at hWritten
  subst hWritten
  rcases Song.isOf_iff.mpr hSong with
    ⟨tokens, hTokens, hBalanced, hWritten⟩
  have hUnits := Song.count_of_writtenBy hWritten
  rw [Token.count_of_areWordsOf hTokens,
    Token.count_of_areWordsOf hTokens] at hUnits
  rcases Song.exists_join_of_segments hBalanced hSegments with
    ⟨offsets, curves, hSound, _, hCurves, rfl⟩
  have hDurations :=
    Song.map_duration_join hSound.length_eq hCurves
  have hSegmentFits :=
    (Song.forall_duration_join hSound.length_eq hCurves
      fun duration =>
        duration * settings.ticksPerUnit.toNat <
          UInt32.size).mpr hFits
  have hLength := Performance.lengthOf_eq_mul hSegmentFits
  rw [hDurations, ← hUnits.1] at hLength
  have hEnd := Performance.countBends_of_ofSegments hEvents
  refine ⟨hEnd.2.trans hLength, hEnd.1.trans hLength, ?_⟩
  rw [hCount, Song.length_join hSound.length_eq hCurves,
    ← Song.length_svaras hBalanced, hUnits.2]

/- A svara that is held twice, and a line that repeats the
svara in front of it. -/
def heldText : String :=
  "\x7b sa , , ri1 \x7d\r\n\x7b :/ : \x7d\n\t\x7b , \x7d \x7b : \x7d"

def heldSong : Song where
  lines :=
    [⟨[⟨"sa", 3, ⟨1, 3⟩⟩, ⟨"ri1", 1, ⟨1, 10⟩⟩],
        [⟨":/", ⟨2, 3⟩⟩, ⟨":", ⟨2, 6⟩⟩], ⟨1, 1⟩⟩,
      ⟨[⟨",", 1, ⟨3, 4⟩⟩], [⟨":", ⟨3, 10⟩⟩], ⟨3, 2⟩⟩]

theorem takesUnits_heldText :
    ∃ rendition,
      ofText Performance.brisk Registry.builtin heldText =
          .ok rendition ∧
        Midi.elapsed rendition.events = 2 * 5 ∧
        TakesUnits Performance.brisk heldText rendition := by
  have hSong : Song.ofText heldText = .ok heldSong := by
    decide +kernel
  have hFits :
      ∀ svara ∈ heldSong.svaras,
        svara.duration *
            Performance.brisk.ticksPerUnit.toNat <
          UInt32.size := by
    decide
  have hOk :
      (ofText Performance.brisk Registry.builtin
        heldText).isOk = true := by
    decide +kernel
  have hWords :
      TokenKind.svaraName.countIn heldText = 5 := by
    decide +kernel
  rcases exists_eq_ok_of_isOk hOk with ⟨rendition, hText⟩
  have hUnits := takesUnits_of_ofText Performance.brisk
    Registry.builtin heldText heldSong rendition hSong hFits
    hText
  refine ⟨rendition, hText, ?_, hUnits⟩
  rw [hUnits.elapsed_eq, hWords]
  rfl

end Rendition

end Carnatic
