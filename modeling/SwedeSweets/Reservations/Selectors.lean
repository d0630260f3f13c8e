import SwedeSweets.Database
import SwedeSweets.Lib.Dict

namespace SwedeSweets

open Relational Fallible

/-!
# Reading reservations

The active reservations of some batches, grouped by batch
(`activeReservedQuantitiesByBatchPk`), and what an order has reserved.  The main fact is
`getD_activeReservedQuantities`: the grouped sum under a requested batch is the aggregate
`Db.activeReserved`.
-/

/-- Active allocation quantities grouped by inventory batch, read at `now`. -/
def activeAllocationReservations (now : Time) (db : Db) (batchPks : List ℕ) : List (ℕ × ℤ) :=
  (Dict.accumulate ((db.allocations.select (fun a => batchPks.contains a.batchId && a.isActive now)).map
    (fun a => (a.batchId, (a.quantity : ℤ))))).entries

/-- Active reserved quantities for the requested batches.  A sum of row quantities is never
    negative, so the check of the source on it has no counterpart. -/
def activeReservedQuantitiesByBatchPk (now : Time) (db : Db) (batchPks : List ℕ) : Dict ℕ ℤ :=
  Dict.accumulate ((activeAllocationReservations now db batchPks).filter
    (fun e => batchPks.contains e.1))

/-- Active reserved quantity for one physical batch. -/
def activeReservedQuantityForBatchPk (now : Time) (db : Db) (batchPk : ℕ) : ℤ :=
  (activeReservedQuantitiesByBatchPk now db [batchPk]).getD batchPk 0

/-- Whether an order has any allocation records. -/
def hasReservationsForOrder (db : Db) (orderPk : ℕ) : Bool := db.orderAllocations orderPk ≠ []

/-! ### The grouped sums -/

/-- The quantities a batch has among the grouped rows are what it has reserved. -/
private theorem sum_active (now : Time) (db : Db) (batchPks : List ℕ) (k : ℕ)
    (hk : k ∈ batchPks) :
    (((db.allocations.select (fun a => batchPks.contains a.batchId && a.isActive now)).map
      (fun a => (a.batchId, (a.quantity : ℤ)))).map (fun x => if x.1 = k then x.2 else 0)).sum
      = (db.activeReserved now k : ℤ) := by
  have hsum := Table.sum_select db.allocations
    (fun a => batchPks.contains a.batchId && a.isActive now)
    (fun a => if a.batchId = k then a.quantity else 0)
  have hweight : db.allocations.total (fun a =>
      if (batchPks.contains a.batchId && a.isActive now) = true then
        (if a.batchId = k then a.quantity else 0) else 0)
      = db.activeReserved now k := by
    refine Table.total_congr (fun a _ => ?_)
    unfold Allocation.activeOn
    by_cases hb : a.batchId = k
    · subst hb
      by_cases ha : a.isActive now = true <;> simp [ha, hk]
    · simp [hb]
  rw [← hweight, ← hsum, List.map_map]
  -- Integers and naturals sum alike, row by row.
  induction db.allocations.select (fun a => batchPks.contains a.batchId && a.isActive now) with
  | nil => rfl
  | cons a as ih =>
    simp only [List.map_cons, List.sum_cons, Function.comp_apply] at ih ⊢
    rw [ih]
    by_cases hb : a.batchId = k <;> simp [hb]

/-- **Reserved map.** Under a requested batch the map has the aggregate of its active
    reservations, under any other key nothing. -/
theorem getD_activeReservedQuantities (now : Time) (db : Db) (batchPks : List ℕ) (k : ℕ) :
    (activeReservedQuantitiesByBatchPk now db batchPks).getD k 0
      = if k ∈ batchPks then (db.activeReserved now k : ℤ) else 0 := by
  unfold activeReservedQuantitiesByBatchPk activeAllocationReservations
  rw [Dict.getD_accumulate, Dict.sum_filter_entries, Dict.getD_accumulate]
  by_cases hk : k ∈ batchPks
  · rw [if_pos (by simpa using hk), if_pos hk, sum_active now db batchPks k hk]
  · rw [if_neg (by simpa using hk), if_neg hk]

/-- What the selector reports for a batch is its active reserved quantity. -/
theorem activeReservedQuantityForBatchPk_eq (now : Time) (db : Db) (k : ℕ) :
    activeReservedQuantityForBatchPk now db k = (db.activeReserved now k : ℤ) := by
  rw [activeReservedQuantityForBatchPk, getD_activeReservedQuantities, if_pos (by simp)]

/-- No value of the map is negative. -/
theorem activeReservedQuantities_nonneg (now : Time) (db : Db) (batchPks : List ℕ) :
    ∀ v ∈ (activeReservedQuantitiesByBatchPk now db batchPks).values, 0 ≤ v := by
  intro v hv
  obtain ⟨e, he, rfl⟩ := List.mem_map.mp hv
  have hget := getD_activeReservedQuantities now db batchPks e.1
  rw [Dict.getD_of_mem he] at hget
  rw [hget]
  by_cases hk : e.1 ∈ batchPks
  · rw [if_pos hk]; exact Int.natCast_nonneg _
  · rw [if_neg hk]

end SwedeSweets
