import Carnatic.Proofs.Scalar.Float
import Carnatic.Proofs.Scalar.Rational

/-
  The laws of the two orders.

  Checkpoints are sorted by one order and compared by another.
  The order they are sorted by is total, and numbers of which
  neither comes before the other are the same there. Both
  orders agree on `[0, 1]`, where every float is a number,
  except that they may disagree about equal numbers. Floats
  and rationals obey the same laws.

  Main declarations:
    * `Scalar.Equal`
    * `LawfulScalar`
    * the instances for `Float` and `Rat`
-/

------------------------------------------------------------
-- Equal Numbers
------------------------------------------------------------

namespace Carnatic

namespace Scalar

variable {R : Type} [Scalar R]

/-
  Numbers of which neither is beyond the other. The zeros of
  the floats are equal, though they are not the same, and what
  is not a number equals nothing.
-/
def Equal (x y : R) : Prop :=
  x ≤ y ∧ y ≤ x

instance (x y : R) : Decidable (Equal x y) :=
  inferInstanceAs (Decidable (_ ∧ _))

theorem Equal.symm
    {x y : R}
    (hEqual : Equal x y) :
    Equal y x :=
  And.symm hEqual

/- Floats are equal where they test as equal. -/
theorem equal_iff_beq {x y : Float} :
    Equal x y ↔ (x == y) = true := by
  unfold Equal
  rw [float_le_iff, float_le_iff, float_beq_iff]
  constructor
  · intro hBoth
    exact ⟨hBoth.1.1, by omega⟩
  · intro hSame
    refine ⟨⟨hSame.1, ?_⟩, ⟨hSame.1.symm, ?_⟩⟩
    · omega
    · omega

/- Rationals are equal where they are the same. -/
theorem equal_iff_eq {x y : ℚ} :
    Equal x y ↔ x = y :=
  le_antisymm_iff.symm

end Scalar

------------------------------------------------------------
-- Laws
------------------------------------------------------------

/-
  The laws of the order that sorts, of the order that compares,
  and of both together on `[0, 1]`.
-/
class LawfulScalar (R : Type) [Scalar R] : Prop where
  precedes_total :
    ∀ x y : R,
      Scalar.precedes x y = true ∨ Scalar.precedes y x = true
  precedes_trans :
    ∀ {x y z : R},
      Scalar.precedes x y = true →
        Scalar.precedes y z = true →
          Scalar.precedes x z = true
  precedes_antisymm :
    ∀ {x y : R},
      Scalar.precedes x y = true →
        Scalar.precedes y x = true → x = y
  le_trans :
    ∀ {x y z : R}, x ≤ y → y ≤ z → x ≤ z
  le_of_precedes :
    ∀ {x y : R},
      Scalar.InUnit x →
        Scalar.InUnit y →
          Scalar.precedes x y = true → x ≤ y
  lt_iff_not_le :
    ∀ {x y : R},
      Scalar.InUnit x → Scalar.InUnit y → (x < y ↔ ¬y ≤ x)

/- What lies in `[0, 1]` is a number. -/
theorem isNaN_of_inUnit
    {x : Float}
    (hInside : Scalar.InUnit x) :
    x.isNaN = false :=
  (float_le_iff.mp hInside.1).1.2

instance : LawfulScalar Float where
  precedes_total x y := by
    change decide _ = true ∨ decide _ = true
    rw [decide_eq_true_iff, decide_eq_true_iff]
    exact Int.le_total _ _
  precedes_trans hFirst hSecond := by
    apply decide_eq_true
    exact Int.le_trans (of_decide_eq_true hFirst)
      (of_decide_eq_true hSecond)
  precedes_antisymm hFirst hSecond := by
    apply floatRank_injective
    exact Int.le_antisymm (of_decide_eq_true hFirst)
      (of_decide_eq_true hSecond)
  le_trans hFirst hSecond := by
    rw [float_le_iff] at hFirst hSecond ⊢
    refine ⟨⟨hFirst.1.1, hSecond.1.2⟩, ?_⟩
    exact Int.le_trans hFirst.2 hSecond.2
  le_of_precedes hFirst hSecond hBefore := by
    apply float_le_iff.mpr
    refine ⟨⟨isNaN_of_inUnit hFirst,
      isNaN_of_inUnit hSecond⟩, ?_⟩
    exact floatLevel_le_of_floatRank_le
      (of_decide_eq_true hBefore)
  lt_iff_not_le hFirst hSecond := by
    have hNumber := isNaN_of_inUnit hFirst
    have hOther := isNaN_of_inUnit hSecond
    rw [float_lt_iff, float_le_iff]
    simp only [hNumber, hOther, and_self, true_and, not_le]

instance : LawfulScalar ℚ where
  precedes_total x y := by
    change decide _ = true ∨ decide _ = true
    rw [decide_eq_true_iff, decide_eq_true_iff]
    exact le_total x y
  precedes_trans hFirst hSecond := by
    apply decide_eq_true
    exact le_trans (of_decide_eq_true hFirst)
      (of_decide_eq_true hSecond)
  precedes_antisymm hFirst hSecond :=
    le_antisymm (of_decide_eq_true hFirst)
      (of_decide_eq_true hSecond)
  le_trans hFirst hSecond := le_trans hFirst hSecond
  le_of_precedes _ _ hBefore := of_decide_eq_true hBefore
  lt_iff_not_le _ _ := not_le.symm

end Carnatic
