import SwedeSweets.Inventory.Selectors
import SwedeSweets.Reservations.Planning
import SwedeSweets.Reservations.Selectors

namespace SwedeSweets

open Relational Fallible

/-!
# Reservation services

Reserving an order line from a batch pool, and the four ways a reservation ends: cancelled,
deleted, consumed at packing, or promoted from a payment hold to a durable reservation.
`Reservations/Effects.lean` says what each of them does to the tables.
-/

/-! ### Reserving -/

/-- One reservation about to be inserted. -/
structure NewAllocation where
  line : OrderLine
  batchPk : ℕ
  quantity : ℕ
  reservedUntil : Option Time
  quantity_pos : 0 < quantity

/-- The row of a new reservation; its status is RESERVED by default. -/
def NewAllocation.row (x : NewAllocation) : NewRow Allocation where
  make pk :=
    { pk := pk
      orderId := x.line.orderId
      orderLineId := x.line.pk
      batchId := x.batchPk
      quantity := x.quantity
      status := .reserved
      reservedUntil := x.reservedUntil
      quantity_pos := x.quantity_pos }
  pk_make _ := rfl

/-- The row for one pick; the table only admits positive quantities. -/
def newAllocation (line : OrderLine) (reservedUntil : Option Time) (pick : BatchPick) :
    Result NewAllocation :=
  if h : 0 < pick.quantity.toNat then
    return ⟨line, pick.batchPk, pick.quantity.toNat, reservedUntil, h⟩
  else throw (.integrityError "allocation_quantity_gt_0")

/-- Physical batch data required by reservation planning. -/
def InventoryBatch.availability (b : InventoryBatch) : BatchAvailability where
  batchPk := b.pk
  batchCode := b.batchId
  productId := b.productId
  physicalQuantity := b.quantity
  bestBefore := b.bestBefore

/-- `order_by("best_before", "batch_id", "id")`, with text compared by the database. -/
def lockOrder (rt : Runtime) (a b : InventoryBatch) : Prop :=
  a.bestBefore < b.bestBefore ∨ (a.bestBefore = b.bestBefore ∧
    ((rt.textLe a.batchId b.batchId = true ∧ rt.textLe b.batchId a.batchId = false)
      ∨ (rt.textLe a.batchId b.batchId = true ∧ rt.textLe b.batchId a.batchId = true
          ∧ a.pk ≤ b.pk)))

instance (rt : Runtime) (a b : InventoryBatch) : Decidable (lockOrder rt a b) := by
  unfold lockOrder; infer_instance

/-- One pool may not mix products or target a product other than the line's. -/
def validatePool (line : OrderLine) (batches : List InventoryBatch) : Result Unit := do
  let productIds := (batches.map InventoryBatch.productId).dedup
  require (productIds.length ≤ 1)
    (.invalidReservationPool "reservation pool must contain one product")
  require (productIds = [] ∨ productIds = [line.productId])
    (.invalidReservationPool "reservation pool product does not match order line")

/-- The rows for a plan over the locked pool. -/
def planReservation (orderLine : OrderLine) (reservedUntil : Option Time)
    (lockedBatches : List InventoryBatch) (reserved : Dict ℕ ℤ) (quantity : ℤ) :
    Result (List NewAllocation) := do
  let picks ← planBatchPicks (lockedBatches.map InventoryBatch.availability) quantity reserved
  picks.mapM (newAllocation orderLine reservedUntil)

/-- Reserve an order line from an explicitly selected batch pool. -/
def reserveOrderLineFromPool (rt : Runtime) (db : Db) (orderLine : OrderLine)
    (batches : BatchQuery) (quantity : ℤ) (reservedUntil : Option Time) : Result Db := do
  let lockedBatches := (db.batches.select batches).insertionSort (lockOrder rt)
  validatePool orderLine lockedBatches
  let reserved := activeReservedQuantitiesByBatchPk rt.now db
    (lockedBatches.map InventoryBatch.pk)
  let rows ← planReservation orderLine reservedUntil lockedBatches reserved quantity
  return { db with allocations := db.allocations.insertAll (rows.map NewAllocation.row) }

/-- What the callers turn `InsufficientReservationCapacity` into. -/
def stockError (product : Product) : Error → Error
  | .insufficientReservationCapacity requested available =>
      .insufficientStockError product.displayName requested available
        (max (requested - available) 0)
  | e => e

/-! ### Releasing -/

namespace Allocation

/-- `ALLOWED_TRANSITIONS`. -/
def allowedTransitions : AllocationStatus → List AllocationStatus
  | .reserved => [.consumed, .cancelled]
  | .consumed => []
  | .cancelled => []

def transitionTo (self : Allocation) (target : AllocationStatus) : Result Allocation := do
  if self.status = target then return self
  require (target ∈ allowedTransitions self.status)
    (.invalidAllocationStatusTransition ("Cannot transition allocation " ++ toString self.pk))
  return { self with status := target }

def consume (self : Allocation) : Result Allocation := self.transitionTo .consumed

def cancel (self : Allocation) : Result Allocation := self.transitionTo .cancelled

end Allocation

/-- The RESERVED rows of an order. -/
def reservedOf (orderPk : ℕ) (a : Allocation) : Bool :=
  a.orderId = orderPk && a.status = .reserved

/-- Save the rows `f` returns, one after the other. -/
def saveAllocations (db : Db) (f : Allocation → Result Allocation) (as : List Allocation) :
    Result Db :=
  as.foldlM (fun db a => do return { db with allocations := db.allocations.put (← f a) }) db

/-- Cancel every currently RESERVED allocation for an order. -/
def cancelReservationsForOrder (db : Db) (orderPk : ℕ) : Result Db :=
  saveAllocations db Allocation.cancel (db.allocations.select (reservedOf orderPk))

/-- Cancel temporary reservations for an order; non-expiring ones are left untouched. -/
def cancelTemporaryReservationsForOrder (db : Db) (orderPk : ℕ) : Result Db :=
  saveAllocations db Allocation.cancel
    (db.allocations.select (fun a => reservedOf orderPk a && a.reservedUntil.isSome))

/-- Delete RESERVED allocations before rebuilding an order. -/
def deleteReservationsForOrder (db : Db) (orderPk : ℕ) : Db :=
  { db with allocations := db.allocations.delete (reservedOf orderPk) }

/-! ### Consuming -/

/-- The picked quantity per batch, in the order the batches first occur. -/
def quantityByBatchPk (as : List Allocation) : Dict ℕ ℕ :=
  Dict.accumulate (as.map (fun a => (a.batchId, a.quantity)))

/-- Pick one batch: its locked row is the instance and the persisted row alike, since
    each batch is picked once. -/
def pickBatch (rt : Runtime) (db : Db) (pick : ℕ × ℕ) : Result Db := do
  let batch ← orRaise (db.batches.get? pick.1) .keyError
  let (_, row) ← batch.pick rt batch pick.2
  return { db with batches := db.batches.put row }

/-- `order_by("batch__best_before", "batch__batch_id", "id")`. -/
def consumeOrder (rt : Runtime) (db : Db) (a a' : Allocation) : Prop :=
  match db.batches.get? a.batchId, db.batches.get? a'.batchId with
  | some b, some b' =>
      b.bestBefore < b'.bestBefore ∨ (b.bestBefore = b'.bestBefore ∧
        ((rt.textLe b.batchId b'.batchId = true ∧ rt.textLe b'.batchId b.batchId = false)
          ∨ (rt.textLe b.batchId b'.batchId = true ∧ rt.textLe b'.batchId b.batchId = true
              ∧ a.pk ≤ a'.pk)))
  | _, _ => a.pk ≤ a'.pk

instance (rt : Runtime) (db : Db) (a a' : Allocation) : Decidable (consumeOrder rt db a a') := by
  unfold consumeOrder
  split <;> infer_instance

/-- There is something to consume. -/
def requireReservations (orderPk : ℕ) (allocations : List Allocation) : Result Unit :=
  require (allocations ≠ [])
    (.missingReservations ("order " ++ toString orderPk ++ " has no reserved allocations"))

/-- Consume reservations and reduce the corresponding physical stock. -/
def consumeReservationsForOrder (rt : Runtime) (db : Db) (orderPk : ℕ) : Result Db := do
  let allocations := (db.allocations.select (reservedOf orderPk)).insertionSort
    (consumeOrder rt db)
  requireReservations orderPk allocations
  let db ← (quantityByBatchPk allocations).entries.foldlM (pickBatch rt) db
  saveAllocations db Allocation.consume allocations

/-! ### Promoting -/

/-- `update(reserved_until=None)`. -/
def clearReservedUntil : Edit Allocation where
  apply a := { a with reservedUntil := none }
  pk_apply _ := rfl

/-- The RESERVED rows of an order that are active at `now`; all of them must be temporary. -/
def promotable (now : Time) (orderPk : ℕ) (reservations : List Allocation) :
    Result (List Allocation) := do
  let activeReservations := reservations.filter
    (fun a => a.reservedUntil.all (fun u => now < u))
  require (activeReservations ≠ [])
    (.missingReservations ("Order " ++ toString orderPk ++ " has no active reservations"))
  require (∀ a ∈ activeReservations, a.reservedUntil ≠ none)
    (.invalidReservationPool ("Order " ++ toString orderPk ++ " already has durable reservations"))
  return activeReservations

/-- `filter(pk__in=...).update(reserved_until=None)`. -/
def makePermanent (reservations : List Allocation) (db : Db) : Db :=
  { db with
    allocations := db.allocations.modify
      (fun a => (reservations.map Allocation.pk).contains a.pk) clearReservedUntil }

/-- Convert active temporary reservations into durable reservations. -/
def makeReservationsPermanentForOrder (rt : Runtime) (db : Db) (orderPk : ℕ) : Result Db := do
  let now := rt.now
  let reservations := db.allocations.select (reservedOf orderPk)
  let activeReservations ← promotable now orderPk reservations
  return makePermanent activeReservations db

/-! ### Policies -/

/-- Consume reserved stock before an order moves to PACKED. -/
def consumeOrderReservationsBeforePacking (rt : Runtime) (db : Db) (order : Order) : Result Db :=
  (consumeReservationsForOrder rt db order.pk).mapError (fun
    | .missingReservations _ =>
        .invalidOrderOperation ("Order " ++ toString order.pk ++ " has no reserved allocations")
    | e => e)

/-- Release active reservations before an order is cancelled. -/
def releaseOrderReservationsBeforeCancellation (db : Db) (order : Order) : Result Db :=
  cancelReservationsForOrder db order.pk

/-- Remove active reservations before an order's lines are replaced. -/
def clearOrderReservationsBeforeLineReplacement (db : Db) (order : Order) : Result Db :=
  return deleteReservationsForOrder db order.pk

/-- Promote temporary payment holds before an order is placed. -/
def makeOrderReservationsPermanentBeforePlacement (rt : Runtime) (db : Db) (order : Order) :
    Result Db :=
  (makeReservationsPermanentForOrder rt db order.pk).mapError (fun
    | .missingReservations _ =>
        .invalidOrderOperation
          ("Order " ++ toString order.pk ++ " has no active payment reservations")
    | e => e)

end SwedeSweets
