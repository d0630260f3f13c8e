import SwedeSweets.Guarantees.Planning
import SwedeSweets.Reservations.Effects

namespace SwedeSweets

open Relational Fallible

/-!
# What one batch gives to a reservation

A reservation from a pool takes from a batch its free units, as far as the batches of the pool
that sort before it leave something over (`Db.fefoShare`).  `reserve_share` — the rows a
reservation writes are exactly these shares.
-/

/-- The batch is picked from before the other one. -/
def InventoryBatch.fefoBefore (c b : InventoryBatch) : Bool :=
  decide (c.availability.fefoLe b.availability ∧ ¬ b.availability.fefoLe c.availability)

namespace Db

/-- The free units of the batches of a pool that are picked from before `b`. -/
def unitsBefore (now : Time) (db : Db) (batches : BatchQuery) (b : InventoryBatch) : ℕ :=
  db.poolCapacity now (fun c => batches c && c.fefoBefore b)

/-- The units a reservation of `quantity` units from the pool takes from `b`. -/
def fefoShare (now : Time) (db : Db) (batches : BatchQuery) (quantity : ℕ) (b : InventoryBatch) : ℕ :=
  if batches b = true then min (db.freeUnits now b) (quantity - db.unitsBefore now batches b) else 0

end Db

/-- The planner sees the free units before a batch as the database has them. -/
theorem capacity_before (rt : Runtime) (db : Db) (batches : BatchQuery) (b : InventoryBatch) :
    Greedy.capacity
        (freeUnits (activeReservedQuantitiesByBatchPk rt.now db
          ((lockedPool rt db batches).map InventoryBatch.pk)))
        ((fefoOrder ((lockedPool rt db batches).map InventoryBatch.availability)).filter
          (fun a => a.fefoLe b.availability ∧ ¬ b.availability.fefoLe a))
      = db.unitsBefore rt.now batches b := by
  have hperm : ((fefoOrder ((lockedPool rt db batches).map InventoryBatch.availability)).filter
      (fun a => a.fefoLe b.availability ∧ ¬ b.availability.fefoLe a)).Perm
      (((lockedPool rt db batches).filter (fun c => c.fefoBefore b)).map
        InventoryBatch.availability) := by
    refine ((fefoOrder_perm _).filter _).trans (List.Perm.of_eq ?_)
    rw [List.filter_map]
    rfl
  unfold Greedy.capacity Db.unitsBefore Db.poolCapacity Greedy.capacity
  rw [(hperm.map _).sum_eq, List.map_map]
  have hpool : ((lockedPool rt db batches).filter (fun c => c.fefoBefore b)).Perm
      (db.batches.select (fun c => batches c && c.fefoBefore b)) := by
    refine ((lockedPool_perm rt db batches).filter _).trans (List.Perm.of_eq ?_)
    unfold Table.select
    rw [List.filter_filter]
    exact List.filter_congr (fun c _ => Bool.and_comm _ _)
  rw [← (hpool.map _).sum_eq]
  refine congrArg List.sum (List.map_congr_left (fun c hc => ?_))
  exact freeUnits_availability (List.mem_filter.mp hc).1

/-- The pool a reservation locks holds a batch once. -/
theorem lockedPool_nodup (rt : Runtime) (db : Db) (batches : BatchQuery) :
    (((lockedPool rt db batches).map InventoryBatch.availability).map
      BatchAvailability.batchPk).Nodup := by
  rw [List.map_map]
  exact ((lockedPool_perm rt db batches).map _).nodup_iff.mpr (db.batches.select_nodup_pk batches)

/-- What the plan picks from a batch. -/
theorem mem_reservationPlan {rt : Runtime} {db : Db} {batches : BatchQuery} {quantity n : ℕ}
    {b : InventoryBatch} (hb : b ∈ db.batches) :
    (b.availability, n) ∈ reservationPlan rt db batches quantity ↔
      0 < n ∧ n = db.fefoShare rt.now batches quantity b := by
  have hpks := lockedPool_nodup rt db batches
  have hpool : ∀ c, c.availability ∈ (lockedPool rt db batches).map InventoryBatch.availability →
      c ∈ db.batches → c ∈ lockedPool rt db batches := by
    intro c hc hcb
    obtain ⟨c', hc', havail⟩ := List.mem_map.mp hc
    have hpk : c'.pk = c.pk := congrArg BatchAvailability.batchPk havail
    rwa [← Table.eq_of_pk_eq (mem_lockedPool.mp hc').1 hcb hpk]
  have hmem := fun a => (fefoOrder_perm ((lockedPool rt db batches).map
    InventoryBatch.availability)).mem_iff (a := a)
  unfold reservationPlan
  rw [Greedy.mem_fill_sorted (fefoOrder_pairwise _)
    ((fefoOrder_perm _).nodup_iff.mpr (List.Nodup.of_map _ hpks))
    (fun x hx y hy => fefoLe_antisymm hpks ((hmem x).mp hx) ((hmem y).mp hy))]
  refine and_congr_right (fun hn => ?_)
  rw [hmem, capacity_before]
  unfold Db.fefoShare
  constructor
  · rintro ⟨hb', hshare⟩
    have hlocked := hpool b hb' hb
    rw [if_pos (mem_lockedPool.mp hlocked).2, ← freeUnits_availability hlocked]
    exact hshare
  · intro hshare
    by_cases hq : batches b = true
    · have hlocked : b ∈ lockedPool rt db batches := mem_lockedPool.mpr ⟨hb, hq⟩
      rw [if_pos hq, ← freeUnits_availability hlocked] at hshare
      exact ⟨List.mem_map_of_mem hlocked, hshare⟩
    · rw [if_neg hq] at hshare
      have hn : 0 < n := hn
      omega

/-- The rows of a reservation are the shares of the batches. -/
structure Shares (now : Time) (db : Db) (line : OrderLine) (batches : BatchQuery) (quantity : ℕ)
    (xs : List NewAllocation) : Prop where
  row : ∀ x ∈ xs, x.line = line ∧ ∃ b ∈ db.batches, b.pk = x.batchPk
    ∧ x.quantity = db.fefoShare now batches quantity b
  all : ∀ b ∈ db.batches, 0 < db.fefoShare now batches quantity b →
    ∃ x ∈ xs, x.batchPk = b.pk ∧ x.quantity = db.fefoShare now batches quantity b
  /-- A batch is picked from once. -/
  single : (xs.map NewAllocation.batchPk).Nodup

/-- **Shares.** -/
theorem reserve_share {rt : Runtime} {db db' : Db} {line : OrderLine} {batches : BatchQuery}
    {quantity : ℕ} {reservedUntil : Option Time}
    (h : reserveOrderLineFromPool rt db line batches quantity reservedUntil = .ok db') :
    ∃ xs, db' = db.withReservations xs ∧ Shares rt.now db line batches quantity xs
      ∧ ∀ x ∈ xs, x.reservedUntil = reservedUntil := by
  obtain ⟨-, -, -, xs, hmap, hxs, rfl⟩ := reserveOrderLineFromPool_eq_ok.mp h
  refine ⟨xs, rfl, ⟨fun x hx => ⟨(hxs x hx).1, ?_⟩, fun b hb hpos => ?_, ?_⟩,
    fun x hx => (hxs x hx).2⟩
  · have hpick : x.pick ∈ picksOf (reservationPlan rt db batches quantity) := by
      rw [← hmap]
      exact List.mem_map_of_mem hx
    obtain ⟨a, n, ha, hpick⟩ := mem_picksOf.mp hpick
    obtain ⟨hpk, hq⟩ := BatchPick.mk.inj hpick
    obtain ⟨b, hb, rfl⟩ := List.mem_map.mp
      ((fefoOrder_perm _).mem_iff.mp (Greedy.mem_fill ha).1)
    have hb := (mem_lockedPool.mp hb).1
    refine ⟨b, hb, hpk.symm, ?_⟩
    rw [← ((mem_reservationPlan hb).mp ha).2]
    exact_mod_cast hq
  · have hplan : (b.availability, db.fefoShare rt.now batches quantity b)
        ∈ reservationPlan rt db batches quantity := (mem_reservationPlan hb).mpr ⟨hpos, rfl⟩
    have hpick := mem_picksOf.mpr ⟨_, _, hplan, rfl⟩
    rw [← hmap] at hpick
    obtain ⟨x, hx, hpick⟩ := List.mem_map.mp hpick
    obtain ⟨hpk, hq⟩ := BatchPick.mk.inj hpick
    exact ⟨x, hx, hpk, by exact_mod_cast hq⟩
  · have hbatches : xs.map NewAllocation.batchPk
        = ((reservationPlan rt db batches quantity).map Prod.fst).map BatchAvailability.batchPk := by
      have hpicks := congrArg (List.map BatchPick.batchPk) hmap
      rw [picksOf, List.map_map, List.map_map] at hpicks
      rw [List.map_map]
      exact hpicks
    rw [hbatches]
    refine List.Nodup.sublist ((Greedy.fill_sublist _ _ _).map _) ?_
    rw [((fefoOrder_perm _).map _).nodup_iff]
    exact lockedPool_nodup rt db batches

end SwedeSweets
