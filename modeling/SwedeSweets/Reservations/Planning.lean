import SwedeSweets.Lib.Dict
import SwedeSweets.Lib.Greedy
import SwedeSweets.Runtime
import Mathlib.Data.List.Sort
import Mathlib.Order.Lattice

namespace SwedeSweets

open Fallible

/-!
# FEFO planning

`planBatchPicks` plans picks from one product's batch pool, first expiry first.  The main
fact is `planBatchPicks_eq_ok`: planning succeeds exactly when the checks on its input
pass and the free units of the pool meet the request, and the picks are then the greedy
filling (`Greedy.fill`) of the request from the batches in FEFO order.
-/

/-- Physical batch data required by reservation planning. -/
structure BatchAvailability where
  batchPk : ℕ
  batchCode : String
  productId : ℕ
  physicalQuantity : ℤ
  bestBefore : Date
  deriving DecidableEq, Repr

structure BatchPick where
  batchPk : ℕ
  quantity : ℤ
  deriving DecidableEq, Repr

/-- The sort key `(best_before, batch_code, batch_pk)`, compared lexicographically. -/
def BatchAvailability.fefoLe (a b : BatchAvailability) : Prop :=
  a.bestBefore < b.bestBefore ∨ (a.bestBefore = b.bestBefore ∧
    (a.batchCode < b.batchCode ∨ (a.batchCode = b.batchCode ∧ a.batchPk ≤ b.batchPk)))

instance (a b : BatchAvailability) : Decidable (a.fefoLe b) := by
  unfold BatchAvailability.fefoLe; infer_instance

/-- The units of a batch that a plan may still take. -/
def allocatableQuantity (reserved : Dict ℕ ℤ) (b : BatchAvailability) : ℤ :=
  max (b.physicalQuantity - reserved.getD b.batchPk 0) 0

/-- The picking loop over the ordered batches. -/
def pickBatches (reserved : Dict ℕ ℤ) (requested : ℤ) :
    List BatchAvailability → (remaining totalAvailable : ℤ) → List BatchPick →
      Result (List BatchPick)
  | [], _, totalAvailable, _ => throw (.insufficientReservationCapacity requested totalAvailable)
  | b :: bs, remaining, totalAvailable, picks => do
      let allocatable := allocatableQuantity reserved b
      let totalAvailable := totalAvailable + allocatable
      if allocatable = 0 then
        pickBatches reserved requested bs remaining totalAvailable picks
      else
        let quantityToPick := min allocatable remaining
        let picks := picks ++ [⟨b.batchPk, quantityToPick⟩]
        let remaining := remaining - quantityToPick
        if remaining = 0 then return picks
        pickBatches reserved requested bs remaining totalAvailable picks

/-- Plan FEFO picks from one homogeneous product batch pool. -/
def planBatchPicks (pool : List BatchAvailability) (requested : ℤ) (reserved : Dict ℕ ℤ) :
    Result (List BatchPick) := do
  require (0 < requested) (.invalidReservationPlan "requested quantity must be positive")
  require (pool ≠ []) (.insufficientReservationCapacity requested 0)
  require ((pool.map BatchAvailability.productId).dedup.length = 1)
    (.invalidReservationPlan "batch pool must contain exactly one product")
  require (∀ b ∈ pool, 0 ≤ b.physicalQuantity)
    (.invalidReservationPlan "physical quantity must not be negative")
  require (∀ q ∈ reserved.values, 0 ≤ q)
    (.invalidReservationPlan "reserved quantity must not be negative")
  pickBatches reserved requested (pool.insertionSort BatchAvailability.fefoLe) requested 0 []

/-! ### What a plan is -/

/-- The free units of a batch, as a number of units. -/
def freeUnits (reserved : Dict ℕ ℤ) (b : BatchAvailability) : ℕ :=
  (allocatableQuantity reserved b).toNat

/-- The units that may be allocated, as an integer. -/
theorem coe_freeUnits (reserved : Dict ℕ ℤ) (b : BatchAvailability) :
    (freeUnits reserved b : ℤ) = allocatableQuantity reserved b :=
  Int.toNat_of_nonneg (le_max_right _ _)

/-- The picks of a greedy filling. -/
def picksOf (xs : List (BatchAvailability × ℕ)) : List BatchPick :=
  xs.map (fun x => ⟨x.1.batchPk, x.2⟩)

/-- The loop returns iff the rest of the request fits the rest of the pool, and appends
    the greedy filling of it. -/
theorem pickBatches_eq_ok (reserved : Dict ℕ ℤ) (requested : ℤ) (bs : List BatchAvailability)
    (r : ℕ) (hr : 0 < r) (total : ℤ) (picks out : List BatchPick) :
    pickBatches reserved requested bs r total picks = .ok out ↔
      r ≤ Greedy.capacity (freeUnits reserved) bs ∧
        out = picks ++ picksOf (Greedy.fill (freeUnits reserved) bs r) := by
  -- By induction on the batches, as the loop goes through them.
  induction bs generalizing r total picks with
  | nil => simp [pickBatches, Greedy.capacity]; omega
  | cons b bs ih =>
    have hcap : Greedy.capacity (freeUnits reserved) (b :: bs)
        = freeUnits reserved b + Greedy.capacity (freeUnits reserved) bs := by
      simp [Greedy.capacity]
    have hfree := coe_freeUnits reserved b
    rw [pickBatches, ← hfree, hcap]
    by_cases h0 : freeUnits reserved b = 0
    · -- a batch without free units is skipped
      rw [if_pos (by rw [h0]; rfl), ih r hr, Greedy.fill_cons_empty h0, h0, Nat.zero_add]
    · rw [if_neg (by exact_mod_cast h0), Greedy.fill_cons h0 bs (by omega)]
      have hmin : min (freeUnits reserved b : ℤ) (r : ℤ) = ((min (freeUnits reserved b) r : ℕ) : ℤ) := by
        omega
      simp only [hmin]
      by_cases hdone : r ≤ freeUnits reserved b
      · -- this batch meets the rest of the request
        have hm : min (freeUnits reserved b) r = r := Nat.min_eq_right hdone
        rw [hm, if_pos (by omega), Nat.sub_self, Greedy.fill_zero]
        simp only [pure_eq_ok, picksOf, List.map_cons, List.map_nil]
        exact ⟨fun h => ⟨by omega, h.symm⟩, fun h => h.2.symm⟩
      · have hm : min (freeUnits reserved b) r = freeUnits reserved b := by omega
        have hsub : (r : ℤ) - (freeUnits reserved b : ℤ) = ((r - freeUnits reserved b : ℕ) : ℤ) := by
          omega
        rw [hm, if_neg (by omega), hsub, ih (r - freeUnits reserved b) (by omega)]
        simp only [picksOf, List.map_cons, List.append_assoc, List.singleton_append]
        exact and_congr_left (fun _ => by omega)

/-- Every batch of the pool is of the product `p`. -/
def OneProduct (pool : List BatchAvailability) (p : ℕ) : Prop := ∀ b ∈ pool, b.productId = p

/-- A pool has one distinct product when all its batches are of one. -/
theorem oneProduct_iff {pool : List BatchAvailability} (hne : pool ≠ []) :
    (pool.map BatchAvailability.productId).dedup.length = 1 ↔ ∃ p, OneProduct pool p := by
  rw [List.length_eq_one_iff]
  constructor
  · rintro ⟨p, hp⟩
    refine ⟨p, fun b hb => ?_⟩
    have hmem : b.productId ∈ (pool.map BatchAvailability.productId).dedup :=
      List.mem_dedup.mpr (List.mem_map_of_mem hb)
    rw [hp] at hmem
    exact List.mem_singleton.mp hmem
  · rintro ⟨p, hp⟩
    have hmap : pool.map BatchAvailability.productId = List.replicate pool.length p :=
      List.eq_replicate_iff.mpr ⟨List.length_map _, fun x hx => by
        obtain ⟨b, hb, rfl⟩ := List.mem_map.mp hx
        exact hp b hb⟩
    refine ⟨p, ?_⟩
    rw [hmap, List.replicate_dedup]
    exact fun h => hne (List.length_eq_zero_iff.mp h)

/-- The pool in FEFO order. -/
def fefoOrder (pool : List BatchAvailability) : List BatchAvailability :=
  pool.insertionSort BatchAvailability.fefoLe

/-- Sorting a pool keeps each of its batches. -/
theorem fefoOrder_perm (pool : List BatchAvailability) : (fefoOrder pool).Perm pool :=
  List.perm_insertionSort _ _

/-- Ordering the pool does not change its capacity. -/
theorem capacity_fefoOrder (cap : BatchAvailability → ℕ) (pool : List BatchAvailability) :
    Greedy.capacity cap (fefoOrder pool) = Greedy.capacity cap pool :=
  ((fefoOrder_perm pool).map cap).sum_eq

/-- **Planning.** A plan exists iff the request is positive, the pool is of one product and
    holds the request in free units, and no quantity is negative; the plan is the greedy
    filling of the request in FEFO order. -/
theorem planBatchPicks_eq_ok (pool : List BatchAvailability) (requested : ℤ)
    (reserved : Dict ℕ ℤ) (out : List BatchPick) :
    planBatchPicks pool requested reserved = .ok out ↔
      (0 < requested ∧ (∃ p, OneProduct pool p) ∧ (∀ b ∈ pool, 0 ≤ b.physicalQuantity)
        ∧ (∀ q ∈ reserved.values, 0 ≤ q)
        ∧ requested ≤ Greedy.capacity (freeUnits reserved) pool)
      ∧ out = picksOf (Greedy.fill (freeUnits reserved) (fefoOrder pool) requested.toNat) := by
  unfold planBatchPicks
  simp only [bind_eq_ok, require_eq_ok, exists_const]
  -- A request of nothing is refused before the pool is looked at.
  by_cases hpos : 0 < requested
  · obtain ⟨r, rfl⟩ := Int.eq_ofNat_of_zero_le (le_of_lt hpos)
    have hr : 0 < r := by exact_mod_cast hpos
    rw [pickBatches_eq_ok reserved r _ r hr, ← fefoOrder, capacity_fefoOrder]
    simp only [List.nil_append, Int.toNat_natCast, Int.ofNat_le]
    constructor
    · rintro ⟨-, hne, hone, hphys, hres, hcap, rfl⟩
      exact ⟨⟨hpos, (oneProduct_iff hne).mp hone, hphys, hres, hcap⟩, rfl⟩
    · rintro ⟨⟨-, hone, hphys, hres, hcap⟩, rfl⟩
      have hne : pool ≠ [] := by
        rintro rfl
        simp [Greedy.capacity] at hcap
        omega
      exact ⟨hpos, hne, (oneProduct_iff hne).mpr hone, hphys, hres, hcap, rfl⟩
  · simp [hpos]

end SwedeSweets
