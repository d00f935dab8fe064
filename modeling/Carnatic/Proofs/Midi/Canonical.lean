import Carnatic.Proofs.Midi.Size
import Mathlib.Data.List.Basic
import Mathlib.Data.List.Induction

/-
  Canonical quantities.

  Bytes encode a number if all but the last have their top bit
  set and their groups of seven bits spell the number. Every
  encoding of a number is the one that is written, behind some
  groups of zero. So this one is shorter than any other, and
  it is the only one that does not lead with such a group.

  Main declarations:
    * `Midi.Quantity.groupsFrom` and `Midi.Quantity.Encodes`
    * `Midi.Quantity.encodes_iff`
    * `Midi.Quantity.eq_of_prefix`
    * `Midi.Quantity.IsCanonical`
    * `Midi.Quantity.isCanonical`
-/

------------------------------------------------------------
-- Encodings
------------------------------------------------------------

namespace Carnatic

namespace Midi

namespace Quantity

/- The number that the groups of seven bits in some bytes spell
behind those of a number, the most significant first. -/
def groupsFrom : Nat → List UInt8 → Nat
| value, [] => value
| value, byte :: rest =>
    groupsFrom (value * 128 + byte.toNat % 128) rest

/-
  Bytes that encode a number. The top bit says of every byte
  whether another one follows, and the other bits spell the
  number.
-/
structure Encodes
    (bytes : List UInt8)
    (value : Nat) : Prop where
  continued : ∀ byte ∈ bytes.dropLast, 128 ≤ byte
  closed : ∃ last, bytes.getLast? = some last ∧ last < 128
  groups_eq : groupsFrom 0 bytes = value

theorem groupsFrom_concat
    (value : Nat)
    (front : List UInt8)
    (byte : UInt8) :
    groupsFrom value (front ++ [byte]) =
      groupsFrom value front * 128 + byte.toNat % 128 := by
  induction front generalizing value with
  | nil => rfl
  | cons first rest ih => exact ih _

/- Encodings are bytes that are continued, and a last one. -/
theorem encodes_concat_iff
    {front : List UInt8}
    {last : UInt8}
    {value : Nat} :
    Encodes (front ++ [last]) value ↔
      (∀ byte ∈ front, 128 ≤ byte) ∧
        last < 128 ∧
        groupsFrom 0 front * 128 + last.toNat = value := by
  have hLast :
      last < 128 → last.toNat % 128 = last.toNat := by
    intro hLess
    exact Nat.mod_eq_of_lt (UInt8.lt_iff_toNat_lt.mp hLess)
  constructor
  · rintro ⟨hContinued, ⟨other, hOther, hLess⟩, hGroups⟩
    rw [List.dropLast_concat] at hContinued
    rw [List.getLast?_concat, Option.some.injEq] at hOther
    subst hOther
    rw [groupsFrom_concat, hLast hLess] at hGroups
    exact ⟨hContinued, hLess, hGroups⟩
  · rintro ⟨hContinued, hLess, hGroups⟩
    refine ⟨?_, ⟨last, by simp, hLess⟩, ?_⟩
    · rwa [List.dropLast_concat]
    · rwa [groupsFrom_concat, hLast hLess]

------------------------------------------------------------
-- Leading Groups
------------------------------------------------------------

theorem toNat_continued (n : Nat) :
    (UInt8.ofNat (n % 128 + 128)).toNat = n % 128 + 128 := by
  rw [UInt8.toNat_ofNat']
  omega

/- The groups of a number, none of which is the last. -/
theorem le_of_mem_leading
    (n : Nat) :
    ∀ byte ∈ leading n, 128 ≤ byte := by
  fun_induction leading n with
  | case1 => simp
  | case2 n hPositive ih =>
      rw [List.forall_mem_append]
      refine ⟨ih, ?_⟩
      rw [List.forall_mem_singleton, UInt8.le_iff_toNat_le,
        toNat_continued]
      exact Nat.le_add_left 128 _

theorem groupsFrom_leading (n : Nat) :
    groupsFrom 0 (leading n) = n := by
  fun_induction leading n with
  | case1 => rfl
  | case2 n hPositive ih =>
      rw [groupsFrom_concat, ih, toNat_continued]
      omega

/- The most significant group of a number is not zero. -/
theorem head?_leading_ne (n : Nat) :
    (leading n).head? ≠ some 0x80 := by
  fun_induction leading n with
  | case1 => simp
  | case2 n hPositive ih =>
      rw [List.head?_append]
      cases hHead : (leading (n / 128)).head? with
      | some first => simpa [hHead] using ih
      | none =>
          -- The number is this one group, so it is not zero.
          rw [List.head?_eq_none_iff, leading.eq_def] at hHead
          split at hHead
          · intro hZero
            have hByte := congrArg UInt8.toNat
              (Option.some.inj hZero)
            rw [toNat_continued] at hByte
            change n % 128 + 128 = 128 at hByte
            omega
          · simp at hHead

/- Bytes that are all continued are the groups of a number,
behind some groups of zero. -/
theorem exists_leading_of_continued
    {front : List UInt8}
    (hContinued : ∀ byte ∈ front, 128 ≤ byte) :
    ∃ count,
      front =
        List.replicate count 0x80 ++
          leading (groupsFrom 0 front) := by
  induction front using List.reverseRecOn with
  | nil =>
      refine ⟨0, ?_⟩
      rw [groupsFrom, leading, if_pos rfl]
      rfl
  | append_singleton front byte ih =>
      rw [List.forall_mem_append,
        List.forall_mem_singleton] at hContinued
      rcases ih hContinued.1 with ⟨count, hFront⟩
      have hLarge := UInt8.le_iff_toNat_le.mp hContinued.2
      change 128 ≤ byte.toNat at hLarge
      have hByte := byte.toNat_lt
      rw [groupsFrom_concat, leading.eq_def]
      split
      · rename_i hZero
        have hNone : groupsFrom 0 front = 0 := by omega
        have hGroup : byte = 0x80 := by
          apply UInt8.toNat_inj.mp
          change byte.toNat = 128
          omega
        refine ⟨count + 1, ?_⟩
        rw [hNone, leading, if_pos rfl,
          List.append_nil] at hFront
        rw [hFront, hGroup, List.replicate_succ',
          List.append_nil]
      · have hAbove :
            (groupsFrom 0 front * 128 + byte.toNat % 128) /
                128 =
              groupsFrom 0 front := by
          omega
        have hGroup :
            UInt8.ofNat
                ((groupsFrom 0 front * 128 +
                    byte.toNat % 128) % 128 + 128) =
              byte := by
          apply UInt8.toNat_inj.mp
          rw [toNat_continued]
          omega
        refine ⟨count, ?_⟩
        rw [hAbove, hGroup, ← List.append_assoc, ← hFront]

------------------------------------------------------------
-- What Is Written
------------------------------------------------------------

/- Every encoding of a number is what is written for it, behind
some groups of zero. -/
theorem encodes_iff
    {bytes : List UInt8}
    {value : UInt32} :
    Encodes bytes value.toNat ↔
      ∃ count,
        bytes = List.replicate count 0x80 ++ encode value := by
  have hLast :
      (UInt8.ofNat (value.toNat % 128)).toNat =
        value.toNat % 128 := by
    rw [UInt8.toNat_ofNat']
    omega
  rw [encode_eq]
  constructor
  · intro hEncodes
    rcases List.eq_nil_or_concat' bytes with
      rfl | ⟨front, last, rfl⟩
    · rcases hEncodes.closed with ⟨last, hNone, _⟩
      simp at hNone
    · rcases encodes_concat_iff.mp hEncodes with
        ⟨hContinued, hLess, hGroups⟩
      rw [UInt8.lt_iff_toNat_lt] at hLess
      change last.toNat < 128 at hLess
      rcases exists_leading_of_continued hContinued with
        ⟨count, hFront⟩
      have hAbove : groupsFrom 0 front = value.toNat / 128 := by
        omega
      have hGroup :
          last = UInt8.ofNat (value.toNat % 128) := by
        apply UInt8.toNat_inj.mp
        rw [hLast]
        omega
      refine ⟨count, ?_⟩
      rw [← hAbove, ← hGroup, ← List.append_assoc, ← hFront]
  · rintro ⟨count, rfl⟩
    rw [← List.append_assoc, encodes_concat_iff]
    refine ⟨?_, ?_, ?_⟩
    · rw [List.forall_mem_append]
      refine ⟨?_, le_of_mem_leading _⟩
      intro byte hByte
      rw [(List.mem_replicate.mp hByte).2]
      exact UInt8.le_refl 128
    · rw [UInt8.lt_iff_toNat_lt, hLast]
      exact Nat.mod_lt _ (by decide)
    · have hZeros :
          groupsFrom 0
              (List.replicate count 0x80 ++
                leading (value.toNat / 128)) =
            value.toNat / 128 := by
        induction count with
        | zero => exact groupsFrom_leading _
        | succ count ih => exact ih
      rw [hZeros, hLast]
      omega

/- What is written for a number does not start with what is
written for another. -/
theorem eq_of_prefix
    {value other : UInt32}
    (hPrefix : encode other <+: encode value) :
    other = value := by
  rcases hPrefix with ⟨rest, hRest⟩
  have hOther := read?_encode other rest
  have hValue := read?_encode value []
  rw [hRest, ← List.append_nil (encode value), hValue,
    Option.some.injEq, Prod.mk.injEq] at hOther
  exact hOther.1.symm

theorem head?_encode_ne (value : UInt32) :
    (encode value).head? ≠ some 0x80 := by
  rw [encode_eq, List.head?_append]
  cases hHead : (leading (value.toNat / 128)).head? with
  | some first =>
      have hFirst := head?_leading_ne (value.toNat / 128)
      rwa [hHead] at hFirst
  | none =>
      intro hLast
      have hByte := congrArg UInt8.toNat
        (Option.some.inj hLast)
      rw [UInt8.toNat_ofNat'] at hByte
      change value.toNat % 128 % 256 = 128 at hByte
      omega

/-
  A number is written canonically. Whatever stands in front of
  it stays, and one to five bytes are added, four at most for
  numbers below 2 ^ 28. They encode the number and do not lead
  with a group of zero. They do not start with what is written
  for another number, and any other encoding of this number is
  longer.
-/
structure IsCanonical (value : UInt32) : Prop where
  write_eq :
    ∀ out, write out value = some (out ++ encode value)
  length_pos : 1 ≤ (encode value).length
  length_le : (encode value).length ≤ 5
  length_le_four_iff :
    (encode value).length ≤ 4 ↔ value.toNat < 2 ^ 28
  encodes : Encodes (encode value) value.toNat
  head_ne : (encode value).head? ≠ some 0x80
  prefix_free :
    ∀ other, encode other <+: encode value → other = value
  shortest :
    ∀ bytes,
      Encodes bytes value.toNat →
        bytes ≠ encode value →
          (encode value).length < bytes.length

/- Every number is written canonically. -/
theorem isCanonical (value : UInt32) : IsCanonical value where
  write_eq := by
    intro out
    rw [Quantity.write_eq, encode_eq]
  length_pos := by
    rw [length_encode]
    exact Nat.le_add_left 1 _
  length_le := by
    have hLog : Nat.log 128 value.toNat < 5 :=
      Nat.log_lt_of_lt_pow' (by decide)
        (value.toNat_lt.trans (by decide))
    rw [length_encode]
    exact hLog
  length_le_four_iff := by
    have hGroups : (2 : Nat) ^ 28 = 128 ^ 4 := by decide
    rw [length_encode, Nat.succ_le_iff, hGroups]
    constructor
    · exact Nat.lt_pow_of_log_lt (by decide)
    · exact Nat.log_lt_of_lt_pow' (Nat.succ_ne_zero 3)
  encodes := encodes_iff.mpr ⟨0, rfl⟩
  head_ne := head?_encode_ne value
  prefix_free := by
    intro other hPrefix
    exact eq_of_prefix hPrefix
  shortest := by
    intro bytes hEncodes hOther
    rcases encodes_iff.mp hEncodes with ⟨count, rfl⟩
    rw [List.length_append, List.length_replicate]
    cases count with
    | zero => exact absurd rfl hOther
    | succ count => omega

/- The largest number of four bytes, and the next one. -/
example :
    encode 0x0FFFFFFF = [0xFF, 0xFF, 0xFF, 0x7F] ∧
      encode 0x10000000 = [0x81, 0x80, 0x80, 0x80, 0x00] := by
  decide +kernel

end Quantity

end Midi

end Carnatic
