import SwedeSweets.Catalog
import SwedeSweets.Lib.RoundUp

namespace SwedeSweets

open Fallible

/-!
# Order quantities in whole stock units

`quantityToUnits` rounds a weight up to whole units: grams must be whole, and fractions of a gram in
a quantity of kilograms are rounded up first, which makes no difference to the units
(`quantityToUnits_eq_ok`).  `ExactCeiling` collects what holds of every product that weighs something.

`quantity_to_units_ceiling` — the conversion is the exact ceiling.
-/

/-- The quantities that may be ordered in a unit: only kilograms admit fractions. -/
def OrderUnit.Admits (unit : OrderUnit) (quantity : ℚ) : Prop :=
  0 < quantity ∧ (unit = .kg ∨ quantity = ⌊quantity⌋)

instance (unit : OrderUnit) (quantity : ℚ) : Decidable (unit.Admits quantity) := by
  unfold OrderUnit.Admits
  infer_instance

/-- The stock units that an admissible quantity comes to. -/
def Product.stockUnits (p : Product) (quantity : ℚ) : OrderUnit → ℤ
  | .stock => ⌊quantity⌋
  | .grams => RoundUp.units p.weightPerUnit quantity
  | .kg => RoundUp.units p.weightPerUnit (1000 * quantity)

section

variable {p : Product} {q q' : ℚ} {n n' : ℤ} {unit : OrderUnit}

/-- Rounding up to whole grams first is rounding up at once. -/
theorem gramsToUnits_ceil {x : ℚ} (hx : 0 < x) :
    p.gramsToUnits ⌈x⌉ = .ok n ↔ RoundUp.units p.weightPerUnit x = n := by
  have hpos : 0 < ⌈x⌉ := Int.ceil_pos.mpr hx
  unfold Product.gramsToUnits
  simp only [bind_eq_ok, require_eq_ok, exists_const, pure_eq_ok]
  exact and_iff_right hpos

/-- **The conversion.** -/
theorem quantityToUnits_eq_ok :
    quantityToUnits p q unit = .ok n ↔ unit.Admits q ∧ p.stockUnits q unit = n := by
  unfold quantityToUnits OrderUnit.Admits
  cases unit with
  | stock =>
    simp only [bind_eq_ok, require_eq_ok, exists_const, pure_eq_ok, reduceCtorEq, false_or, and_assoc]
    rfl
  | grams =>
    simp only [bind_eq_ok, require_eq_ok, exists_const, reduceCtorEq, false_or, and_assoc]
    refine and_congr_right (fun hq => and_congr_right (fun hwhole => ?_))
    -- a whole quantity is its own ceiling
    have hceil : ⌊q⌋ = ⌈q⌉ := by
      rw [hwhole, Int.floor_intCast, Int.ceil_intCast]
    rw [hceil]
    exact gramsToUnits_ceil hq
  | kg =>
    simp only [bind_eq_ok, require_eq_ok, exists_const, true_or, and_true]
    refine and_congr_right (fun hq => ?_)
    unfold Product.kgToUnits
    simp only [bind_eq_ok, require_eq_ok, exists_const]
    rw [and_iff_right hq, gramsToUnits_ceil (by positivity), mul_comm q]
    rfl

theorem quantityToUnits_ok (h : unit.Admits q) :
    quantityToUnits p q unit = .ok (p.stockUnits q unit) :=
  quantityToUnits_eq_ok.mpr ⟨h, rfl⟩

/-- A positive quantity takes at least one unit. -/
theorem stockUnits_pos (hw : 0 < p.weightPerUnit) (h : unit.Admits q) :
    0 < p.stockUnits q unit := by
  obtain ⟨hq, hwhole⟩ := h
  cases unit with
  | stock =>
    have hwhole : q = ⌊q⌋ := by simpa using hwhole
    rw [hwhole] at hq
    exact Int.cast_pos.mp hq
  | grams => exact RoundUp.units_pos (by omega) hq
  | kg => exact RoundUp.units_pos (by omega) (by positivity)

/-- A larger quantity takes no fewer units. -/
theorem stockUnits_mono (hw : 0 < p.weightPerUnit) (h : q ≤ q') :
    p.stockUnits q unit ≤ p.stockUnits q' unit := by
  cases unit with
  | stock => exact Int.floor_mono h
  | grams => exact RoundUp.units_mono (by omega) h
  | kg => exact RoundUp.units_mono (by omega) (by linarith)

end

/-- The conversion of order quantities of a product, and back. -/
structure ExactCeiling (p : Product) : Prop where
  grams : ∀ g : ℚ, 0 < g → g = ⌊g⌋ → ∃ n, quantityToUnits p g .grams = .ok n
    ∧ IsLeast {n : ℤ | 1 ≤ n ∧ g ≤ n * p.weightPerUnit} n
  kg : ∀ k : ℚ, 0 < k → ∃ n, quantityToUnits p k .kg = .ok n
    ∧ IsLeast {n : ℤ | 1 ≤ n ∧ 1000 * k ≤ n * p.weightPerUnit} n
  agree : ∀ g k : ℚ, 0 < g → g = ⌊g⌋ → g = 1000 * k →
    quantityToUnits p g .grams = quantityToUnits p k .kg
  monotone : ∀ unit q q' n n', q ≤ q' → quantityToUnits p q unit = .ok n →
    quantityToUnits p q' unit = .ok n' → n ≤ n'
  backFromGrams : ∀ n : ℤ, 0 < n → ∃ g : ℤ, p.unitsToGrams n = .ok g
    ∧ quantityToUnits p g .grams = .ok n
  backFromKg : ∀ n : ℤ, 0 < n → ∃ k, p.unitsToKg n = .ok k ∧ quantityToUnits p k .kg = .ok n
  whole : ∀ q : ℚ, 0 < q → q ≠ ⌊q⌋ →
    quantityToUnits p q .grams = .error (.invalidProductData "gram orders must use a whole number")
      ∧ quantityToUnits p q .stock
        = .error (.invalidProductData "stock unit orders must use a whole number")

/-- **Quantity conversion is the exact ceiling.** -/
theorem quantity_to_units_ceiling {p : Product} (hw : 1 ≤ p.weightPerUnit) : ExactCeiling p where
  grams := by
    intro g hg hwhole
    have hpos : (0 : ℤ) < p.weightPerUnit := by omega
    exact ⟨_, quantityToUnits_ok ⟨hg, Or.inr hwhole⟩, RoundUp.isLeast_units_of_pos hpos hg⟩
  kg := by
    intro k hk
    have hpos : (0 : ℤ) < p.weightPerUnit := by omega
    exact ⟨_, quantityToUnits_ok ⟨hk, Or.inl rfl⟩,
      RoundUp.isLeast_units_of_pos hpos (by positivity)⟩
  agree := by
    intro g k hg hwhole hgk
    have hk : 0 < k := by linarith
    rw [quantityToUnits_ok ⟨hg, Or.inr hwhole⟩, quantityToUnits_ok ⟨hk, Or.inl rfl⟩, hgk]
    rfl
  monotone := by
    intro unit q q' n n' hle hn hn'
    obtain ⟨-, rfl⟩ := quantityToUnits_eq_ok.mp hn
    obtain ⟨-, rfl⟩ := quantityToUnits_eq_ok.mp hn'
    exact stockUnits_mono hw hle
  backFromGrams := by
    intro n hn
    have hgrams : 0 < n * p.weightPerUnit := Int.mul_pos hn (by omega)
    refine ⟨n * p.weightPerUnit, ?_, quantityToUnits_eq_ok.mpr ⟨⟨?_, Or.inr ?_⟩, ?_⟩⟩
    · unfold Product.unitsToGrams
      rw [require_of hn]
      rfl
    · exact Int.cast_pos.mpr hgrams
    · rw [Int.floor_intCast]
    · exact RoundUp.units_weight (by omega) n
  backFromKg := by
    intro n hn
    have hgrams : 0 < n * p.weightPerUnit := Int.mul_pos hn (by omega)
    refine ⟨(n * p.weightPerUnit : ℤ) / 1000, ?_, quantityToUnits_eq_ok.mpr ⟨⟨?_, Or.inl rfl⟩, ?_⟩⟩
    · unfold Product.unitsToKg Product.unitsToGrams
      rw [require_of hn]
      rfl
    · have hcast : (0 : ℚ) < (n * p.weightPerUnit : ℤ) := Int.cast_pos.mpr hgrams
      positivity
    · -- the weight in kilograms comes back to the weight in grams
      show RoundUp.units _ (1000 * (((n * p.weightPerUnit : ℤ) : ℚ) / 1000)) = n
      rw [mul_div_cancel₀ _ (by norm_num : (1000 : ℚ) ≠ 0)]
      exact RoundUp.units_weight (by omega) n
  whole := by
    intro q hq hfraction
    have hrejected : ∀ e : Error, require (q = ⌊q⌋) e = .error e :=
      fun e => require_eq_error.mpr ⟨hfraction, rfl⟩
    unfold quantityToUnits
    refine ⟨bind_eq_error.mpr (Or.inr ⟨(), require_of hq, ?_⟩),
      bind_eq_error.mpr (Or.inr ⟨(), require_of hq, ?_⟩)⟩
    · exact bind_eq_error.mpr (Or.inl (hrejected _))
    · exact bind_eq_error.mpr (Or.inl (hrejected _))

/-- A box of a quarter of a kilogram. -/
theorem quantity_to_units_ceiling_box : ExactCeiling ⟨1, none, "", "Box", 250, "", true⟩ :=
  quantity_to_units_ceiling (by decide)

/-- One gram over a kilogram takes a fifth box. -/
example : quantityToUnits ⟨1, none, "", "Box", 250, "", true⟩ 1001 .grams = .ok 5 := by decide +kernel

end SwedeSweets
