/-
  Variable-length quantities.

  A number is written in groups of seven bits, the most
  significant group first.  Every byte but the last has its
  top bit set.  The groups are filled into a buffer of five
  bytes from behind, as far as the number goes.

  Key definitions include:
    * `Midi.Quantity.leading`
    * `Midi.Quantity.fill`
    * `Midi.Quantity.write`
    * `Midi.Quantity.encode`
-/

------------------------------------------------------------
-- Groups
------------------------------------------------------------

namespace Carnatic

namespace Midi

namespace Quantity

/- The bytes in front of the last one: the groups of a
number, each with its top bit set, none for zero. -/
def leading (n : Nat) : List UInt8 :=
  if n = 0 then
    []
  else
    leading (n / 128) ++ [UInt8.ofNat (n % 128 + 128)]
termination_by n
decreasing_by omega

/- The lowest seven bits of a number. -/
def lowGroup (value : UInt32) : UInt8 :=
  (value &&& 0x7F).toUInt8

theorem toNat_lowGroup (value : UInt32) :
    (lowGroup value).toNat = value.toNat % 128 := by
  have hMask :
      (value &&& 0x7F).toNat = value.toNat % 128 := by
    rw [UInt32.toNat_and]
    exact Nat.and_two_pow_sub_one_eq_mod value.toNat 7
  rw [lowGroup, UInt32.toNat_toUInt8, hMask]
  omega

/- A group with its top bit set. -/
theorem lowGroup_or (value : UInt32) :
    lowGroup value ||| 0x80 =
      UInt8.ofNat (value.toNat % 128 + 128) := by
  have hSmall : value.toNat % 128 < 2 ^ 7 :=
    Nat.mod_lt _ (by decide)
  have hSum :=
    Nat.two_pow_add_eq_or_of_lt hSmall 1
  apply UInt8.toNat_inj.mp
  rw [UInt8.toNat_or, toNat_lowGroup, Nat.or_comm]
  refine hSum.symm.trans ?_
  rw [UInt8.toNat_ofNat']
  omega

/- The number above the lowest seven bits. -/
theorem toNat_shiftRight_seven (value : UInt32) :
    (value >>> 7).toNat = value.toNat / 128 := by
  rw [UInt32.toNat_shiftRight]
  exact Nat.shiftRight_eq_div_pow value.toNat 7

------------------------------------------------------------
-- Writing Quantities
------------------------------------------------------------

/- A buffer of five bytes that is filled from behind, and the
index of the byte that was filled last. -/
structure Buffer where
  index : Nat
  bytes : Vector UInt8 5

/- What has been filled. -/
def Buffer.filled (buffer : Buffer) : List UInt8 :=
  buffer.bytes.toList.drop buffer.index

/-
  Fill in the groups of a number in front of an index, the
  least significant first, each with its top bit set. There is
  no answer if the index would have to go below zero.
-/
def fill
    (rest : UInt32)
    (index : Nat)
    (hIndex : index < 5)
    (bytes : Vector UInt8 5) : Option Buffer :=
  if rest = 0 then
    some ⟨index, bytes⟩
  else
    match index, hIndex with
    | 0, _ => none
    | before + 1, hIndex =>
        let hBefore := Nat.lt_of_succ_lt hIndex
        fill (rest >>> 7) before hBefore
          (bytes.set before (lowGroup rest ||| 0x80) hBefore)

/- Write a number behind some bytes. Its lowest group comes
last and has its top bit clear. -/
def write
    (out : List UInt8)
    (value : UInt32) : Option (List UInt8) :=
  let bytes := (Vector.replicate 5 0).set 4 (lowGroup value)
  (fill (value >>> 7) 4 (by decide) bytes).map fun buffer =>
    out ++ buffer.filled

/- A byte that is set stands in front of what was filled
before. -/
theorem filled_set
    (bytes : Vector UInt8 5)
    (byte : UInt8)
    {index : Nat}
    (hIndex : index < 5) :
    Buffer.filled ⟨index, bytes.set index byte hIndex⟩ =
      byte :: Buffer.filled ⟨index + 1, bytes⟩ := by
  have hLength : index < bytes.toList.length := by
    simpa using hIndex
  simp only [Buffer.filled, Vector.toList_set]
  rw [List.drop_eq_getElem_cons (by simpa using hLength),
    List.getElem_set_self, List.drop_set_of_lt (by simp)]

/- A number without bits above those of the groups in front of
the index finds room for all its groups. -/
theorem fill_eq
    (rest : UInt32)
    {index : Nat}
    (hIndex : index < 5)
    (bytes : Vector UInt8 5)
    (hRest : rest.toNat >>> (7 * index) = 0) :
    ∃ buffer,
      fill rest index hIndex bytes = some buffer ∧
        buffer.filled =
          leading rest.toNat ++
            Buffer.filled ⟨index, bytes⟩ := by
  fun_induction fill rest index hIndex bytes with
  | case1 index hIndex bytes =>
      refine ⟨⟨index, bytes⟩, rfl, ?_⟩
      rw [UInt32.toNat_zero, leading, if_pos rfl]
      rfl
  | case2 rest bytes hSome =>
      have hZero : rest.toNat = (0 : UInt32).toNat := hRest
      exact absurd (UInt32.toNat_inj.mp hZero) hSome
  | case3 rest bytes hSome before hIndex hBefore ih =>
      have hRoom :
          (rest >>> 7).toNat >>> (7 * before) = 0 := by
        rw [UInt32.toNat_shiftRight, ← hRest,
          Nat.mul_succ, Nat.add_comm, Nat.shiftRight_add]
        rfl
      have hPositive : rest.toNat ≠ 0 := by
        intro hZero
        exact hSome (UInt32.toNat_inj.mp hZero)
      rcases ih hRoom with ⟨buffer, hFill, hFilled⟩
      refine ⟨buffer, hFill, ?_⟩
      rw [hFilled, filled_set, toNat_shiftRight_seven,
        lowGroup_or, leading.eq_def rest.toNat,
        if_neg hPositive, List.append_assoc]
      rfl

/- Five bytes are enough for every number. What is written
behind the bytes there are is the groups of the number. -/
theorem write_eq
    (out : List UInt8)
    (value : UInt32) :
    write out value =
      some
        (out ++
          (leading (value.toNat / 128) ++
            [UInt8.ofNat (value.toNat % 128)])) := by
  have hRoom : (value >>> 7).toNat >>> (7 * 4) = 0 := by
    have hValue := value.toNat_lt
    rw [toNat_shiftRight_seven, Nat.shiftRight_eq_div_pow]
    omega
  have hLast :
      lowGroup value = UInt8.ofNat (value.toNat % 128) := by
    apply UInt8.toNat_inj.mp
    rw [toNat_lowGroup, UInt8.toNat_ofNat']
    omega
  rcases fill_eq (value >>> 7) (by decide)
      ((Vector.replicate 5 0).set 4 (lowGroup value)) hRoom
    with ⟨buffer, hFill, hFilled⟩
  rw [filled_set, toNat_shiftRight_seven, hLast] at hFilled
  simp only [write, hFill, Option.map_some, hFilled]
  rfl

/- The bytes of a number. -/
def encode (value : UInt32) : List UInt8 :=
  (write [] value).get (by rw [write_eq]; rfl)

theorem encode_eq (value : UInt32) :
    encode value =
      leading (value.toNat / 128) ++
        [UInt8.ofNat (value.toNat % 128)] := by
  simp [encode, write_eq]

end Quantity

end Midi

end Carnatic
