import Mathlib.Algebra.Order.Floor.Ring
import Mathlib.Data.Int.ConditionallyCompleteOrder
import Mathlib.Order.GaloisConnection.Basic

/-!
# Rounding up to whole units

How many units of weight `w` an amount takes, when fractions of one are rounded up first:
`(⌈x⌉ + w - 1) / w` in integers.  It is the lower adjoint of the weight of so many units
(`gc_roundUp`), and so the least number of units that covers the amount.
-/

namespace RoundUp

variable {K : Type} [Ring K] [LinearOrder K] [FloorRing K] {w : ℤ}

/-- The units of weight `w` that cover the amount `x`. -/
def units (w : ℤ) (x : K) : ℤ := (⌈x⌉ + w - 1) / w

/-- **Rounding up is adjoint to weighing.** -/
theorem gc_roundUp (hw : 0 < w) : GaloisConnection (units w : K → ℤ) (fun n => ((n * w : ℤ) : K)) := by
  intro x n
  show (⌈x⌉ + w - 1) / w ≤ n ↔ _
  rw [Int.ediv_le_iff_le_mul hw, ← Int.ceil_le]
  omega

/-- The least number of units that covers the amount. -/
theorem isLeast_units (hw : 0 < w) (x : K) : IsLeast {n : ℤ | x ≤ ((n * w : ℤ) : K)} (units w x) :=
  (gc_roundUp hw).isLeast_l

/-- More needs at least as many units. -/
theorem units_mono (hw : 0 < w) {x y : K} (h : x ≤ y) : units w x ≤ units w y :=
  (gc_roundUp hw).monotone_l h

variable [IsStrictOrderedRing K]

/-- What so many units weigh takes so many units. -/
theorem units_weight (hw : 0 < w) (n : ℤ) : units w (((n * w : ℤ) : K)) = n := by
  apply le_antisymm
  · exact (gc_roundUp hw).l_u_le n
  · have hcover := (gc_roundUp (K := K) hw).le_u_l ((n * w : ℤ) : K)
    have hcover : n * w ≤ units w ((n * w : ℤ) : K) * w := Int.cast_le.mp hcover
    exact le_of_mul_le_mul_right hcover hw

/-- Something needs at least one unit. -/
theorem units_pos (hw : 0 < w) {x : K} (hx : 0 < x) : 0 < units w x := by
  by_contra hneg
  have hcover := (gc_roundUp hw).le_u_l x
  have hnonpos : units w x * w ≤ 0 := mul_nonpos_of_nonpos_of_nonneg (by omega) hw.le
  have hle : x ≤ ((0 : ℤ) : K) := hcover.trans (Int.cast_le.mpr hnonpos)
  rw [Int.cast_zero] at hle
  exact absurd hle (not_le.mpr hx)

/-- An amount that is not nothing takes one unit at least. -/
theorem isLeast_units_of_pos (hw : 0 < w) {x : K} (hx : 0 < x) :
    IsLeast {n : ℤ | 1 ≤ n ∧ x ≤ n * w} (units w x) := by
  have hleast := isLeast_units hw x
  refine ⟨⟨units_pos hw hx, ?_⟩, fun n hn => hleast.2 ?_⟩
  · have hcover : x ≤ ((units w x * w : ℤ) : K) := hleast.1
    rwa [Int.cast_mul] at hcover
  · show x ≤ ((n * w : ℤ) : K)
    rw [Int.cast_mul]
    exact hn.2

end RoundUp
