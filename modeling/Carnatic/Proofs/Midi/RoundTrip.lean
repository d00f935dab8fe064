import Carnatic.Proofs.Midi.Reader
import Mathlib.Tactic.Ring

/-
  What is written is read back.

  The reader undoes the writer: numbers, quantities, messages,
  tracks and files come back, with fields cut to the bits that
  a file has for them. Files whose fields have no more bits
  than that are told apart by their bytes.

  Main declarations:
    * `Midi.Message.normal` and `Midi.Event.normal`
    * `Midi.Quantity.read?_encode`
    * `Midi.readMessage?_encode`
    * `Midi.readTrack?_trackData`
    * `Midi.File.readFile?_bytes`
    * `Midi.File.eq_of_bytes_eq`
    * `Midi.File.read_bytes`
-/

------------------------------------------------------------
-- Numbers
------------------------------------------------------------

namespace Carnatic

namespace Midi

@[simp]
theorem split?_append
    (front rest : List UInt8) :
    split? front.length (front ++ rest) =
      some (front, rest) := by
  simp [split?]

@[simp]
theorem length_bigEndian
    (count n : Nat) :
    (bigEndian count n).length = count := by
  induction count with
  | zero => rfl
  | succ count ih => simp [bigEndian, ih]

theorem bigEndianFrom_bigEndian
    (value count n : Nat) :
    bigEndianFrom value (bigEndian count n) =
      value * 256 ^ count + n % 256 ^ count := by
  induction count generalizing value with
  | zero => simp [bigEndian, bigEndianFrom, Nat.mod_one]
  | succ count ih =>
      have hDigit :
          (UInt8.ofNat (n >>> (8 * count))).toNat =
            n / 256 ^ count % 256 := by
        rw [UInt8.toNat_ofNat', Nat.shiftRight_eq_div_pow,
          pow_mul]
        rfl
      rw [bigEndian, bigEndianFrom, ih, hDigit,
        Nat.mod_pow_succ, Nat.pow_succ]
      ring

theorem readNumber?_bigEndian
    (count n : Nat)
    (hFits : n < 256 ^ count)
    (rest : List UInt8) :
    readNumber? count (bigEndian count n ++ rest) =
      some (n, rest) := by
  have hSplit := split?_append (bigEndian count n) rest
  rw [length_bigEndian] at hSplit
  simp [readNumber?, hSplit, bigEndianFrom_bigEndian,
    Nat.mod_eq_of_lt hFits]

------------------------------------------------------------
-- Quantities
------------------------------------------------------------

/- The leading bytes of a number spell it, whatever follows. -/
theorem Quantity.readFrom_leading
    (n : Nat)
    (rest : List UInt8) :
    readFrom 0 (leading n ++ rest) = readFrom n rest := by
  fun_induction leading n generalizing rest with
  | case1 => rfl
  | case2 n hPositive ih =>
      have hByte :
          (UInt8.ofNat (n % 128 + 128)).toNat =
            n % 128 + 128 := by
        rw [UInt8.toNat_ofNat']
        omega
      have hLarge : ¬UInt8.ofNat (n % 128 + 128) < 128 := by
        rw [UInt8.lt_iff_toNat_lt, hByte]
        simp
      have hValue : n / 128 * 128 + n % 128 = n := by
        omega
      rw [List.append_assoc, ih, List.singleton_append,
        readFrom, if_neg hLarge, hByte,
        Nat.add_mod_right, Nat.mod_mod, hValue]

theorem Quantity.read?_encode
    (value : UInt32)
    (rest : List UInt8) :
    read? (encode value ++ rest) = some (value, rest) := by
  have hByte :
      (UInt8.ofNat (value.toNat % 128)).toNat =
        value.toNat % 128 := by
    rw [UInt8.toNat_ofNat']
    omega
  have hSmall :
      UInt8.ofNat (value.toNat % 128) < 128 := by
    rw [UInt8.lt_iff_toNat_lt, hByte]
    exact Nat.mod_lt _ (by decide)
  have hValue :
      value.toNat / 128 * 128 + value.toNat % 128 =
        value.toNat := by
    omega
  have hRead :
      readFrom 0 (encode value ++ rest) =
        some (value.toNat, rest) := by
    rw [encode_eq, List.append_assoc, readFrom_leading,
      List.singleton_append, readFrom, if_pos hSmall, hByte,
      hValue]
  have hFits : value.toNat < UInt32.size :=
    value.toNat_lt
  simp [read?, hRead, hFits]

------------------------------------------------------------
-- Messages
------------------------------------------------------------

/- A message with its fields cut to what a file has room for:
seven bits a data byte, and the reach of the wheel. -/
def Message.normal : Message → Message
| .programChange program =>
    .programChange (program &&& 0x7F)
| .controlChange controller value =>
    .controlChange (controller &&& 0x7F) (value &&& 0x7F)
| .noteOn note velocity =>
    .noteOn (note &&& 0x7F) (velocity &&& 0x7F)
| .noteOff note => .noteOff (note &&& 0x7F)
| .pitchBend value =>
    .pitchBend (max (-8192) (min value 8191))

/- An event with its channel and message cut to what a file
has room for, and its delta as it is. -/
def Event.normal (event : Event) : Event where
  delta := event.delta
  channel := event.channel &&& 0x0F
  message := event.message.normal

/- The fields of a message have no more bits than a file has
for them. -/
def Message.InRange : Message → Prop
| .programChange program => program ≤ 127
| .controlChange controller value =>
    controller ≤ 127 ∧ value ≤ 127
| .noteOn note velocity => note ≤ 127 ∧ velocity ≤ 127
| .noteOff note => note ≤ 127
| .pitchBend value => -8192 ≤ value ∧ value ≤ 8191

/- Neither the channel nor the message of an event loses
anything in a file. -/
def Event.InRange (event : Event) : Prop :=
  event.channel ≤ 15 ∧ event.message.InRange

theorem toNat_lowHalf (byte : UInt8) :
    (byte &&& 0x0F).toNat = byte.toNat % 16 := by
  rw [UInt8.toNat_and]
  exact Nat.and_two_pow_sub_one_eq_mod byte.toNat 4

theorem toNat_dataByte (byte : UInt8) :
    (dataByte byte).toNat = byte.toNat % 128 := by
  rw [dataByte, UInt8.toNat_and]
  exact Nat.and_two_pow_sub_one_eq_mod byte.toNat 7

theorem dataByte_lt (byte : UInt8) :
    dataByte byte < 128 := by
  rw [UInt8.lt_iff_toNat_lt, toNat_dataByte]
  exact Nat.mod_lt _ (by decide)

theorem and_mask_eq_self
    {byte : UInt8}
    (hByte : byte ≤ 127) :
    byte &&& 0x7F = byte := by
  have hNat := UInt8.le_iff_toNat_le.mp hByte
  apply UInt8.toNat_inj.mp
  refine Eq.trans (toNat_dataByte byte) ?_
  exact Nat.mod_eq_of_lt (Nat.lt_succ_of_le hNat)

theorem Message.normal_eq_self
    {message : Message}
    (hInRange : message.InRange) :
    message.normal = message := by
  cases message with
  | programChange program =>
      rw [normal, and_mask_eq_self hInRange]
  | controlChange controller value =>
      rw [normal, and_mask_eq_self hInRange.1,
        and_mask_eq_self hInRange.2]
  | noteOn note velocity =>
      rw [normal, and_mask_eq_self hInRange.1,
        and_mask_eq_self hInRange.2]
  | noteOff note =>
      rw [normal, and_mask_eq_self hInRange]
  | pitchBend value =>
      rw [normal, min_eq_left hInRange.2,
        max_eq_right hInRange.1]

theorem Event.normal_eq_self
    {event : Event}
    (hInRange : event.InRange) :
    event.normal = event := by
  have hChannel : event.channel &&& 0x0F = event.channel := by
    have hNat := UInt8.le_iff_toNat_le.mp hInRange.1
    apply UInt8.toNat_inj.mp
    rw [toNat_lowHalf]
    exact Nat.mod_eq_of_lt (Nat.lt_succ_of_le hNat)
  rw [normal, hChannel, Message.normal_eq_self hInRange.2]

/- The halves of a status byte are the kind and the channel. -/
theorem toNat_statusByte
    {kind : UInt8}
    (hKind : kind.toNat % 16 = 0)
    (channel : UInt8) :
    (statusByte kind channel).toNat =
      kind.toNat + channel.toNat % 16 := by
  have hLow : channel.toNat % 16 < 2 ^ 4 :=
    Nat.mod_lt _ (by decide)
  have hOr :=
    Nat.two_pow_add_eq_or_of_lt hLow (kind.toNat / 16)
  have hHigh : 2 ^ 4 * (kind.toNat / 16) = kind.toNat := by
    omega
  rw [hHigh] at hOr
  rw [statusByte, UInt8.toNat_or, toNat_lowHalf, hOr]

/- A message is read from its status byte and its data. -/
theorem readMessage?_status
    {kind channel : UInt8}
    {data : List UInt8}
    {message : Message}
    (hKind : kind.toNat % 16 = 0)
    (hCount :
      dataCount? (kind.toNat / 16) = some data.length)
    (hData : ∀ byte ∈ data, byte < 128)
    (hMessage :
      messageOf? (kind.toNat / 16) data = some message)
    (rest : List UInt8) :
    readMessage? (statusByte kind channel :: data ++ rest) =
      some ((channel &&& 0x0F, message), rest) := by
  have hStatus := toNat_statusByte hKind channel
  have hHigh :
      (statusByte kind channel).toNat / 16 =
        kind.toNat / 16 := by
    omega
  have hLow :
      statusByte kind channel &&& 0x0F = channel &&& 0x0F := by
    apply UInt8.toNat_inj.mp
    rw [toNat_lowHalf, toNat_lowHalf]
    omega
  rw [List.cons_append]
  simp only [readMessage?]
  rw [hHigh, hCount, hLow]
  simpa [hMessage] using hData

/- The two data bytes of a bend hold the whole position of the
wheel. -/
theorem messageOf?_wheelPosition (value : Int) :
    messageOf? 0xE
        [UInt8.ofNat (wheelPosition value % 128),
          UInt8.ofNat (wheelPosition value / 128)] =
      some (.pitchBend (max (-8192) (min value 8191))) := by
  have hLow :
      (UInt8.ofNat (wheelPosition value % 128)).toNat =
        wheelPosition value % 128 := by
    rw [UInt8.toNat_ofNat']
    omega
  have hHigh :
      (UInt8.ofNat (wheelPosition value / 128)).toNat =
        wheelPosition value / 128 := by
    rw [UInt8.toNat_ofNat', wheelPosition]
    omega
  rw [messageOf?, hLow, hHigh]
  simp only [Option.some.injEq, Message.pitchBend.injEq,
    wheelPosition]
  omega

theorem readMessage?_encode
    (channel : UInt8)
    (message : Message)
    (rest : List UInt8) :
    readMessage? (message.encode channel ++ rest) =
      some ((channel &&& 0x0F, message.normal), rest) := by
  cases message with
  | programChange program =>
      apply readMessage?_status rfl rfl
      · simpa using dataByte_lt program
      · rfl
  | controlChange controller value =>
      apply readMessage?_status rfl rfl
      · simpa using
          ⟨dataByte_lt controller, dataByte_lt value⟩
      · rfl
  | noteOn note velocity =>
      apply readMessage?_status rfl rfl
      · simpa using ⟨dataByte_lt note, dataByte_lt velocity⟩
      · rfl
  | noteOff note =>
      apply readMessage?_status rfl rfl
      · simpa using dataByte_lt note
      · rfl
  | pitchBend value =>
      apply readMessage?_status rfl rfl
      · have hPosition : wheelPosition value ≤ 0x3FFF :=
          Nat.min_le_right _ _
        simp only [List.mem_cons, List.not_mem_nil, or_false,
          forall_eq_or_imp, forall_eq,
          UInt8.lt_iff_toNat_lt, UInt8.toNat_ofNat']
        change _ < 128 ∧ _ < 128
        omega
      · exact messageOf?_wheelPosition value

------------------------------------------------------------
-- Tracks
------------------------------------------------------------

/- A delta and a message in front of a track are its first
event. -/
theorem readTrack?_of_message
    {bytes behind rest : List UInt8}
    {delta : UInt32}
    {channel : UInt8}
    {message : Message}
    (hDelta : Quantity.read? bytes = some (delta, behind))
    (hMessage :
      readMessage? behind = some ((channel, message), rest)) :
    readTrack? bytes =
      (readTrack? rest).map
        (⟨delta, channel, message⟩ :: ·) := by
  rw [readTrack?]
  split
  · rename_i hNone
    rw [hDelta] at hNone
    simp at hNone
  · rename_i otherDelta otherBehind hSome
    rw [hDelta, Option.some.injEq, Prod.mk.injEq] at hSome
    rcases hSome with ⟨rfl, rfl⟩
    split
    · rename_i otherChannel otherMessage otherRest hSome
      rw [hMessage, Option.some.injEq, Prod.mk.injEq,
        Prod.mk.injEq] at hSome
      rcases hSome with ⟨⟨rfl, rfl⟩, rfl⟩
      rfl
    · rename_i hNone
      rw [hMessage] at hNone
      simp at hNone

theorem readTrack?_endOfTrack :
    readTrack? endOfTrack = some [] := by
  cbv

/- The data of a track reads as its events. -/
theorem readTrack?_trackData (events : List Event) :
    readTrack? (trackData events) =
      some (events.map Event.normal) := by
  induction events with
  | nil => exact readTrack?_endOfTrack
  | cons event rest ih =>
      have hData :
          trackData (event :: rest) =
            Quantity.encode event.delta ++
              (event.message.encode event.channel ++
                trackData rest) := by
        simp [trackData, Event.encode]
      have hDelta := Quantity.read?_encode event.delta
        (event.message.encode event.channel ++
          trackData rest)
      have hMessage := readMessage?_encode event.channel
        event.message (trackData rest)
      rw [hData, readTrack?_of_message hDelta hMessage, ih]
      rfl

------------------------------------------------------------
-- Files
------------------------------------------------------------

theorem readChunk?_chunk
    (tag data : List UInt8)
    (hTag : tag.length = 4)
    (hData : data.length < 2 ^ 32)
    (rest : List UInt8) :
    readChunk? tag (chunk tag data ++ rest) =
      some (data, rest) := by
  have hChunk :
      chunk tag data ++ rest =
        tag ++ (bigEndian 4 data.length ++
          (data ++ rest)) := by
    simp [chunk]
  have hFound := split?_append tag
    (bigEndian 4 data.length ++ (data ++ rest))
  rw [hTag] at hFound
  have hLength := readNumber?_bigEndian 4 data.length
    hData (data ++ rest)
  simp [hChunk, readChunk?, hFound, hLength]

/- Track chunks read as their tracks. -/
theorem readTracks?_chunks
    {tracks : List (List Event)}
    (hSizes :
      ∀ events ∈ tracks,
        (trackData events).length < 2 ^ 32)
    (rest : List UInt8) :
    readTracks? tracks.length
        ((tracks.flatMap fun events =>
          chunk trackTag (trackData events)) ++ rest) =
      some (tracks.map (List.map Event.normal), rest) := by
  induction tracks with
  | nil => rfl
  | cons events others ih =>
      have hFirst := readChunk?_chunk trackTag
        (trackData events) rfl (hSizes events (by simp))
        ((others.flatMap fun events =>
          chunk trackTag (trackData events)) ++ rest)
      have hOthers := ih fun other hOther =>
        hSizes other (List.mem_cons_of_mem events hOther)
      simp [readTracks?, hFirst, hOthers,
        readTrack?_trackData]

namespace File

/- The counts of a file fit the fields that hold them. -/
structure Fits (file : File) : Prop where
  count_le : file.tracks.length ≤ 65535
  size_lt :
    ∀ events ∈ file.tracks,
      (trackData events).length < 2 ^ 32

/- All events of a file are as a file can hold them. -/
def InRange (file : File) : Prop :=
  ∀ events ∈ file.tracks, ∀ event ∈ events, event.InRange

theorem map_normal_eq_self
    {file : File}
    (hInRange : file.InRange) :
    file.tracks.map (List.map Event.normal) =
      file.tracks := by
  have hTrack :
      ∀ events ∈ file.tracks,
        events.map Event.normal = id events := by
    intro events hEvents
    have hEvent :
        ∀ event ∈ events, event.normal = id event := by
      intro event hEvent
      exact Event.normal_eq_self
        (hInRange events hEvents event hEvent)
    exact (List.map_congr_left hEvent).trans
      (List.map_id events)
  exact (List.map_congr_left hTrack).trans
    (List.map_id file.tracks)

/- A file reads as its header and its tracks, and nothing is
left behind them. -/
theorem readFile?_bytes
    {file : File}
    (hFits : file.Fits) :
    readFile? file.bytes =
      some
        (⟨1, file.tracks.length, file.ticksPerBeat.toNat,
          file.tracks.map (List.map Event.normal)⟩, []) := by
  have hHeader := readChunk?_chunk headerTag
    file.headerData rfl (by simp [File.headerData])
    (file.tracks.flatMap fun events =>
      chunk trackTag (trackData events))
  have hFormat := readNumber?_bigEndian 2 1 (by decide)
    (bigEndian 2 file.tracks.length ++
      bigEndian 2 file.ticksPerBeat.toNat)
  have hTrackCount := readNumber?_bigEndian 2
    file.tracks.length (Nat.lt_succ_of_le hFits.count_le)
    (bigEndian 2 file.ticksPerBeat.toNat)
  have hTicks := readNumber?_bigEndian 2
    file.ticksPerBeat.toNat file.ticksPerBeat.toNat_lt []
  have hTracks := readTracks?_chunks hFits.size_lt []
  rw [List.append_nil] at hTicks hTracks
  simp only [readFile?, bytes, hHeader,
    Option.bind_eq_bind, Option.bind_some]
  simp only [headerData, List.append_assoc, hFormat,
    hTrackCount, hTicks, hTracks, Option.bind_some]

/- Files in range are told apart by their bytes. -/
theorem eq_of_bytes_eq
    {file other : File}
    (hFits : file.Fits)
    (hOther : other.Fits)
    (hFileRange : file.InRange)
    (hOtherRange : other.InRange)
    (hBytes : file.bytes = other.bytes) :
    file = other := by
  have hFileRead := readFile?_bytes hFits
  have hOtherRead := readFile?_bytes hOther
  rw [map_normal_eq_self hFileRange] at hFileRead
  rw [map_normal_eq_self hOtherRange, ← hBytes,
    hFileRead] at hOtherRead
  simp only [Option.some.injEq, Prod.mk.injEq,
    Reading.mk.injEq, and_true, true_and] at hOtherRead
  rcases hOtherRead with ⟨_, hTicks, hTracks⟩
  rcases file with ⟨fileTicks, fileTracks⟩
  rcases other with ⟨otherTicks, otherTracks⟩
  simp only [UInt16.toNat_inj] at hTicks
  simp only at hTracks
  rw [hTicks, hTracks]

/-
  The bytes of a file are read to the end. The reader finds
  format 1, the number of tracks, the ticks of a quarter note,
  and all tracks in order, with every delta as it was and all
  fields cut to what a file holds. So files in range with the
  same bytes are the same.
-/
theorem read_bytes
    (file : File)
    (hFits : file.Fits) :
    readFile? file.bytes =
        some
          (⟨1, file.tracks.length, file.ticksPerBeat.toNat,
            file.tracks.map (List.map Event.normal)⟩, []) ∧
      (file.InRange →
        ∀ other : File,
          other.Fits → other.InRange →
            file.bytes = other.bytes → file = other) := by
  constructor
  · exact readFile?_bytes hFits
  · intro hFileRange other hOther hOtherRange hBytes
    exact eq_of_bytes_eq hFits hOther hFileRange
      hOtherRange hBytes

/- A file with the largest delta, fields that do not fit, and
a track without events. -/
def extremes : File where
  ticksPerBeat := 0x7FFF
  tracks :=
    [[⟨0xFFFFFFFF, 0x1F, .noteOn 0xFF 0x81⟩,
        ⟨0x80, 0x02, .pitchBend 40000⟩], []]

/- What is left of the extremes in a file. -/
def utmost : File where
  ticksPerBeat := 0x7FFF
  tracks :=
    [[⟨0xFFFFFFFF, 0x0F, .noteOn 0x7F 0x01⟩,
        ⟨0x80, 0x02, .pitchBend 8191⟩], []]

theorem read_bytes_extremes :
    readFile? extremes.bytes =
        some (⟨1, 2, 0x7FFF, utmost.tracks⟩, []) ∧
      ∀ other : File,
        other.Fits → other.InRange →
          utmost.bytes = other.bytes → utmost = other := by
  have hExtremes : extremes.Fits :=
    { count_le := by decide
      size_lt := by decide +kernel }
  have hUtmost : utmost.Fits :=
    { count_le := by decide
      size_lt := by decide +kernel }
  have hInRange : utmost.InRange := by
    simp [InRange, utmost, Event.InRange, Message.InRange]
  exact ⟨(read_bytes extremes hExtremes).1,
    (read_bytes utmost hUtmost).2 hInRange⟩

end File

end Midi

end Carnatic
