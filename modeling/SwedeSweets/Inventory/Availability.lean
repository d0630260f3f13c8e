import SwedeSweets.Reservations.Effects
import Mathlib.Algebra.BigOperators.Ring.Finset

namespace SwedeSweets

open Relational

/-!
# Orderable quantities

What the catalogs show: the orderable units of a product and of a batch, computed in bulk
from the batch table and the active reservations.  Where reservations fit the stock they
are the free units of the pools a reservation would draw from
(`getD_orderableQuantityByProductId`, `getD_orderableQuantityByBatchPk`).
-/

/-- The physical quantity of the orderable batches, summed by product. -/
def orderablePhysicalQuantityByProductId (today : Date) (db : Db) : Dict ℕ ℤ :=
  Dict.accumulate ((db.batches.select (isOrderable today)).map
    (fun b => (b.productId, (b.quantity : ℤ))))

/-- The active reservations on some batches, given with their products, summed by product. -/
def reservedQuantitiesByProductForBatches (now : Time) (db : Db) (batches : List (ℕ × ℕ)) :
    Dict ℕ ℤ :=
  let reservedByBatchPk := activeReservedQuantitiesByBatchPk now db (batches.map Prod.fst)
  Dict.accumulate (batches.map (fun e => (e.2, reservedByBatchPk.getD e.1 0)))

def orderableReservedQuantityByProductId (rt : Runtime) (db : Db) : Dict ℕ ℤ :=
  reservedQuantitiesByProductForBatches rt.now db
    ((db.batches.select (isOrderable rt.today)).map (fun b => (b.pk, b.productId)))

/-- Physical less reserved units by product, never below zero. -/
def orderableQuantityByProductId (rt : Runtime) (db : Db) : Dict ℕ ℤ :=
  let physical := orderablePhysicalQuantityByProductId rt.today db
  let reserved := orderableReservedQuantityByProductId rt db
  Dict.ofKeys physical.keys
    (fun productId => max (physical.getD productId 0 - reserved.getD productId 0) 0)

/-- Currently orderable quantity for requested physical batches; a batch that is missing or
    not orderable has none. -/
def orderableQuantityByBatchPk (rt : Runtime) (db : Db) (batchPks : List ℕ) : Dict ℕ ℤ :=
  let rows := db.batches.select (fun b => batchPks.contains b.pk && isOrderable rt.today b)
  let reserved := activeReservedQuantitiesByBatchPk rt.now db (rows.map InventoryBatch.pk)
  Dict.ofKeys batchPks (fun batchPk =>
    max ((rows.find? (fun b => b.pk = batchPk)).elim 0 (fun b => (b.quantity : ℤ))
      - reserved.getD batchPk 0) 0)

/-! ### They are free units -/

/-- Active reservations fit the physical stock of every batch. -/
def ReservationsFit (now : Time) (db : Db) : Prop :=
  ∀ b ∈ db.batches, db.activeReserved now b.pk ≤ b.quantity

instance (now : Time) (db : Db) : Decidable (ReservationsFit now db) := by
  unfold ReservationsFit; infer_instance

/-- The free units of a pool, as an aggregate over the whole batch table. -/
theorem Db.poolCapacity_eq (now : Time) (db : Db) (batches : BatchQuery) :
    db.poolCapacity now batches
      = db.batches.total (fun b => if batches b = true then db.freeUnits now b else 0) :=
  Table.sum_select db.batches batches (db.freeUnits now)

/-- The products listed are those with an orderable batch. -/
theorem mem_keys_orderablePhysical {today : Date} {db : Db} {p : ℕ} :
    p ∈ (orderablePhysicalQuantityByProductId today db).keys ↔
      ∃ b ∈ db.batches, isOrderable today b = true ∧ b.productId = p := by
  unfold orderablePhysicalQuantityByProductId
  rw [Dict.mem_keys_accumulate, List.map_map]
  simp only [List.mem_map, Function.comp_apply, Table.mem_select, and_assoc]

/-- What a product has physically is what is reserved on it and what is free. -/
theorem physical_eq_reserved_add_free {rt : Runtime} {db : Db} (h : ReservationsFit rt.now db)
    (p : ℕ) :
    (orderablePhysicalQuantityByProductId rt.today db).getD p 0
      = (orderableReservedQuantityByProductId rt db).getD p 0
        + db.poolCapacity rt.now (listOrderableBatchesForProduct rt.today p) := by
  -- The free units, written as the code groups them: batch by batch, per product.
  have hfree : (db.poolCapacity rt.now (listOrderableBatchesForProduct rt.today p) : ℤ)
      = ((db.batches.select (isOrderable rt.today)).map
          (fun b => if b.productId = p then (db.freeUnits rt.now b : ℤ) else 0)).sum := by
    have hsum : db.poolCapacity rt.now (listOrderableBatchesForProduct rt.today p)
        = ((db.batches.select (isOrderable rt.today)).map
          (fun b => if b.productId = p then db.freeUnits rt.now b else 0)).sum := by
      rw [Db.poolCapacity_eq, Table.sum_select]
      refine Table.total_congr (fun b _ => ?_)
      unfold listOrderableBatchesForProduct
      by_cases ho : isOrderable rt.today b = true <;> by_cases hp : b.productId = p <;>
        simp [ho, hp]
    rw [hsum, Nat.cast_list_sum, List.map_map]
    refine congrArg List.sum (List.map_congr_left (fun b _ => ?_))
    by_cases hp : b.productId = p <;> simp [hp]
  unfold orderablePhysicalQuantityByProductId orderableReservedQuantityByProductId
    reservedQuantitiesByProductForBatches
  rw [Dict.getD_accumulate, Dict.getD_accumulate, hfree]
  simp only [List.map_map]
  rw [← List.sum_map_add]
  refine congrArg List.sum (List.map_congr_left (fun b hb => ?_))
  have hmem : b.pk ∈ (db.batches.select (isOrderable rt.today)).map
      (Prod.fst ∘ fun b => (b.pk, b.productId)) := List.mem_map.mpr ⟨b, hb, rfl⟩
  -- No batch is reserved beyond its quantity, so the two parts add up.
  have hfits := h b (Table.mem_select.mp hb).1
  simp only [Function.comp_apply, getD_activeReservedQuantities, if_pos hmem]
  unfold Db.freeUnits
  by_cases hp : b.productId = p
  · simp only [hp, if_true]
    omega
  · simp [hp]

/-- **By product.** The orderable units of a product are the free units of its orderable
    batches. -/
theorem getD_orderableQuantityByProductId {rt : Runtime} {db : Db}
    (h : ReservationsFit rt.now db) (p : ℕ) :
    (orderableQuantityByProductId rt db).getD p 0
      = db.poolCapacity rt.now (listOrderableBatchesForProduct rt.today p) := by
  unfold orderableQuantityByProductId
  rw [Dict.getD_ofKeys]
  by_cases hp : p ∈ (orderablePhysicalQuantityByProductId rt.today db).keys
  · rw [if_pos hp, physical_eq_reserved_add_free h p]
    omega
  · rw [if_neg hp, eq_comm, Nat.cast_eq_zero, Db.poolCapacity_eq, Table.total_eq_zero]
    intro b hb
    refine if_neg (fun hq => hp ?_)
    simp only [listOrderableBatchesForProduct, Bool.and_eq_true, decide_eq_true_eq] at hq
    exact mem_keys_orderablePhysical.mpr ⟨b, hb, hq.2, hq.1⟩

/-- **By batch.** The orderable units of a requested batch are its free units, if it is
    orderable. -/
theorem getD_orderableQuantityByBatchPk (rt : Runtime) (db : Db) {batchPks : List ℕ} {k : ℕ}
    (hk : k ∈ batchPks) :
    (orderableQuantityByBatchPk rt db batchPks).getD k 0
      = db.poolCapacity rt.now (fun b => b.pk = k && isOrderable rt.today b) := by
  unfold orderableQuantityByBatchPk
  rw [Dict.getD_ofKeys, if_pos hk]
  -- Either the batch is among the orderable ones asked for, or its pool is empty.
  cases hf : (db.batches.select (fun b => batchPks.contains b.pk && isOrderable rt.today b)).find?
      (fun b => b.pk = k) with
  | some b =>
    have hbk : b.pk = k := by simpa using List.find?_some hf
    have hmem := List.mem_of_find?_eq_some hf
    obtain ⟨hb, hq⟩ := Table.mem_select.mp hmem
    have ho : isOrderable rt.today b = true := (Bool.and_eq_true_iff.mp hq).2
    have hone : db.poolCapacity rt.now (fun b => b.pk = k && isOrderable rt.today b)
        = db.freeUnits rt.now b := by
      rw [Db.poolCapacity_eq]
      refine (Table.total_eq_of_unique hb (fun x hx hne => if_neg (fun hc => hne ?_))).trans
        (if_pos (by simp [hbk, ho]))
      simp only [Bool.and_eq_true, decide_eq_true_eq] at hc
      exact Table.eq_of_pk_eq hx hb (hc.1.trans hbk.symm)
    rw [hone, Option.elim_some, getD_activeReservedQuantities,
      if_pos (List.mem_map.mpr ⟨b, hmem, hbk⟩)]
    unfold Db.freeUnits
    rw [hbk]
    omega
  | none =>
    have hzero : db.poolCapacity rt.now (fun b => b.pk = k && isOrderable rt.today b) = 0 := by
      rw [Db.poolCapacity_eq, Table.total_eq_zero]
      intro b hb
      refine if_neg (fun hc => ?_)
      simp only [Bool.and_eq_true, decide_eq_true_eq] at hc
      have hno := List.find?_eq_none.mp hf b (Table.mem_select.mpr ⟨hb, by simp [hc, hk]⟩)
      simp [hc.1] at hno
    have hnot : ∀ b ∈ db.batches.select
        (fun b => batchPks.contains b.pk && isOrderable rt.today b), b.pk ≠ k := by
      intro b hb hbk
      have hno := List.find?_eq_none.mp hf b hb
      simp [hbk] at hno
    rw [hzero, Option.elim_none, getD_activeReservedQuantities, if_neg (fun hmem => by
      obtain ⟨b, hb, hbk⟩ := List.mem_map.mp hmem
      exact hnot b hb hbk)]
    rfl

end SwedeSweets
