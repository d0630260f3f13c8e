import SwedeSweets.Lib.Table
import SwedeSweets.Columns

namespace SwedeSweets

open Relational Fallible

/-!
# Inventory batches

`InventoryBatch` owns physical stock and its lifecycle.  Its methods work on an instance
in memory; `save` compares that instance with the row persisted under its key and returns
the instance after saving together with the row it writes.  The two may differ: only the
named fields are written, and an instance may have been read long before.

Each method has one lemma saying what a successful call on a fresh instance writes
(`adjustQuantity_fresh`, `pick_fresh`, `close_fresh`, `markAsEdited_fresh`).
-/

inductive BatchStatus where
  | active | depleted | closed
  deriving DecidableEq, Repr

structure InventoryBatch where
  pk : ℕ
  batchId : String
  productId : ℕ
  quantity : ℕ
  bestBefore : Date
  location : String
  status : BatchStatus
  createdAt : Time
  createdBy : Option ℕ
  editedAt : Option Time
  editedBy : Option ℕ
  closedAt : Option Time
  closedBy : Option ℕ
  deriving DecidableEq, Repr

instance : Row InventoryBatch := ⟨InventoryBatch.pk⟩

@[simp] theorem pk_inventoryBatch (b : InventoryBatch) : Row.pk b = b.pk := rfl

/-- `strip().upper()`; a batch id must not be empty. -/
def normalizeBatchId (rt : Runtime) (value : String) : Result String := do
  let value := rt.upper (Text.strip value)
  require (value ≠ "") (.invalidStockOperation "batch id must not be empty")
  return value

/-- Collapse whitespace; a location must not be empty. -/
def normalizeLocation (value : String) : Result String := do
  let value := Text.collapse value
  require (value ≠ "") (.invalidStockOperation "location must not be empty")
  return value

def maxBatchIdLength : ℕ := 50

def maxLocationLength : ℕ := 120

/-- The fields a `save(update_fields=...)` may name. -/
inductive BatchField where
  | batchId | quantity | bestBefore | location | status
  | createdBy | editedAt | editedBy | closedAt | closedBy
  deriving DecidableEq, Repr

namespace InventoryBatch

/-- `ALLOWED_STATUS_TRANSITIONS`. -/
def allowedStatusTransitions : BatchStatus → List BatchStatus
  | .active => [.depleted, .closed]
  | .depleted => [.active, .closed]
  | .closed => []

/-- True when the batch is ACTIVE and has stock. -/
def isAvailable (self : InventoryBatch) : Prop := self.status = .active ∧ 0 < self.quantity

instance (self : InventoryBatch) : Decidable self.isAvailable := by
  unfold isAvailable; infer_instance

/-- The status that goes with a physical quantity. -/
def statusOf (quantity : ℕ) : BatchStatus := if 0 < quantity then .active else .depleted

def transitionTo (self : InventoryBatch) (newStatus : BatchStatus) : Result InventoryBatch := do
  if self.status = newStatus then return self
  require (newStatus ∈ allowedStatusTransitions self.status)
    (.invalidBatchStatusTransition ("Cannot transition batch " ++ self.batchId))
  return { self with status := newStatus }

/-- ACTIVE with stock, DEPLETED without; CLOSED is never reopened implicitly. -/
def syncStatusFromQuantity (self : InventoryBatch) : Result InventoryBatch := do
  if self.status = .closed then return self
  self.transitionTo (statusOf self.quantity)

/-- Reject a status that the persisted row may not move to. -/
def protectStatusTransition (self persisted : InventoryBatch) : Result Unit := do
  if persisted.status = self.status then return ()
  require (self.status ∈ allowedStatusTransitions persisted.status)
    (.invalidBatchStatusTransition ("Cannot transition batch " ++ self.batchId))

/-- The row after writing the named fields of an instance over the persisted row. -/
def writeFields (self persisted : InventoryBatch) (fields : List BatchField) :
    InventoryBatch where
  pk := persisted.pk
  productId := persisted.productId
  createdAt := persisted.createdAt
  batchId := if .batchId ∈ fields then self.batchId else persisted.batchId
  quantity := if .quantity ∈ fields then self.quantity else persisted.quantity
  bestBefore := if .bestBefore ∈ fields then self.bestBefore else persisted.bestBefore
  location := if .location ∈ fields then self.location else persisted.location
  status := if .status ∈ fields then self.status else persisted.status
  createdBy := if .createdBy ∈ fields then self.createdBy else persisted.createdBy
  editedAt := if .editedAt ∈ fields then self.editedAt else persisted.editedAt
  editedBy := if .editedBy ∈ fields then self.editedBy else persisted.editedBy
  closedAt := if .closedAt ∈ fields then self.closedAt else persisted.closedAt
  closedBy := if .closedBy ∈ fields then self.closedBy else persisted.closedBy

/-- Normalize the text fields about to be saved. -/
def normalizeFields (rt : Runtime) (self : InventoryBatch) (fields : List BatchField) :
    Result InventoryBatch := do
  let batchId ← if .batchId ∈ fields then normalizeBatchId rt self.batchId else pure self.batchId
  let location ← if .location ∈ fields then normalizeLocation self.location else pure self.location
  return { self with batchId := batchId, location := location }

/-- The columns that are written admit their values. -/
def requireColumns (self : InventoryBatch) (fields : List BatchField) : Result Unit := do
  if .quantity ∈ fields then requireInteger self.quantity
  if .batchId ∈ fields then requireFits maxBatchIdLength self.batchId
  if .location ∈ fields then requireFits maxLocationLength self.location

/-- Normalize fields and protect local invariants before saving; the instance after the
    call and the row written.  A quantity in memory is never negative, so the check of the
    source on it has no counterpart. -/
def save (rt : Runtime) (self persisted : InventoryBatch) (fields : List BatchField) :
    Result (InventoryBatch × InventoryBatch) := do
  let self ← self.normalizeFields rt fields
  if .quantity ∈ fields ∨ .status ∈ fields then
    let self ← self.syncStatusFromQuantity
    self.protectStatusTransition persisted
    self.requireColumns fields
    return (self, self.writeFields persisted (.status :: fields))
  else
    self.requireColumns fields
    return (self, self.writeFields persisted fields)

def markAsEdited (rt : Runtime) (self persisted : InventoryBatch) (user : Option ℕ) :
    Result (InventoryBatch × InventoryBatch) :=
  save rt { self with editedAt := some rt.now, editedBy := user } persisted [.editedAt, .editedBy]

/-- Set physical stock count after inventory correction. -/
def adjustQuantity (rt : Runtime) (self persisted : InventoryBatch) (quantity : ℤ) :
    Result (InventoryBatch × InventoryBatch) := do
  require (self.status ≠ .closed)
    (.invalidStockOperation ("Batch " ++ self.batchId ++ " is closed"))
  require (0 ≤ quantity) (.invalidStockOperation "quantity must be non-negative")
  let self ← { self with quantity := quantity.toNat }.syncStatusFromQuantity
  save rt self persisted [.quantity, .status]

/-- Decrease physical stock quantity in memory. -/
def removeQuantity (self : InventoryBatch) (quantity : ℕ) : Result InventoryBatch := do
  require (0 < quantity) (.invalidStockOperation "quantity must be positive")
  require (quantity ≤ self.quantity)
    (.invalidStockOperation ("Cannot remove " ++ toString quantity ++ " units from batch "
      ++ self.batchId ++ "; only " ++ toString self.quantity ++ " available"))
  { self with quantity := self.quantity - quantity }.syncStatusFromQuantity

/-- Remove stock because it was picked for order fulfillment. -/
def pick (rt : Runtime) (self persisted : InventoryBatch) (quantity : ℕ) :
    Result (InventoryBatch × InventoryBatch) := do
  require self.isAvailable
    (.invalidStockOperation ("Batch " ++ self.batchId ++ " is not available"))
  let self ← self.removeQuantity quantity
  save rt self persisted [.quantity, .status]

/-- Close this batch; the physical quantity stays. -/
def close (rt : Runtime) (self persisted : InventoryBatch) (user : Option ℕ) :
    Result (InventoryBatch × InventoryBatch) := do
  let self ← self.transitionTo .closed
  save rt { self with closedAt := some rt.now, closedBy := user } persisted
    [.status, .closedAt, .closedBy]

/-! ### What the methods do on a fresh instance -/

/-- Status synchronisation of a batch that is not closed returns the status of its quantity. -/
theorem syncStatusFromQuantity_of_open (self : InventoryBatch) (h : self.status ≠ .closed) :
    self.syncStatusFromQuantity = .ok { self with status := statusOf self.quantity } := by
  unfold syncStatusFromQuantity transitionTo statusOf
  rw [if_neg h]
  obtain ⟨pk, bid, pid, q, bb, loc, st, ca, cb, ea, eb, cla, clb⟩ := self
  cases st <;> by_cases hq : 0 < q <;>
    simp_all [require, allowedStatusTransitions, bind, Except.bind, pure, Except.pure]

/-- A batch that is not closed may take the status of any quantity. -/
theorem protectStatusTransition_statusOf {self persisted : InventoryBatch}
    (h : persisted.status ≠ .closed) (q : ℕ) (hs : self.status = statusOf q) :
    self.protectStatusTransition persisted = .ok () := by
  unfold protectStatusTransition
  rw [hs]
  cases hp : persisted.status <;> by_cases hq : 0 < q <;>
    simp_all [require, statusOf, allowedStatusTransitions, pure, Except.pure]

/-- Saving quantity and status of an open instance needs a quantity that its column holds,
    and writes exactly these two. -/
theorem save_quantity (rt : Runtime) {self persisted : InventoryBatch}
    {r : InventoryBatch × InventoryBatch}
    (hs : self.status ≠ .closed) (hp : persisted.status ≠ .closed) :
    save rt self persisted [.quantity, .status] = .ok r ↔ self.quantity ≤ maxInteger ∧
      r = ({ self with status := statusOf self.quantity },
        { persisted with quantity := self.quantity, status := statusOf self.quantity }) := by
  -- The status written is the one of the quantity, so the status rule is kept.
  have hprot : ({ self with status := statusOf self.quantity } : InventoryBatch).protectStatusTransition
      persisted = .ok () := protectStatusTransition_statusOf hp self.quantity rfl
  have hwrite : ({ self with status := statusOf self.quantity } : InventoryBatch).writeFields
      persisted [.status, .quantity, .status]
      = { persisted with quantity := self.quantity, status := statusOf self.quantity } := by
    simp [writeFields]
  unfold save normalizeFields requireColumns
  simp only [List.mem_cons, reduceCtorEq, List.not_mem_nil, or_false, or_true, or_self,
    if_true, if_false, pure_bind, syncStatusFromQuantity_of_open self hs, hprot, hwrite,
    bind_eq_ok, pure_eq_ok, requireInteger_eq_ok, exists_const, Except.ok.injEq, exists_eq_left',
    and_true, true_and]
  exact and_congr_right (fun _ => eq_comm)

/-- **Correction.** On a fresh instance `adjustQuantity` sets the quantity, which the column
    must hold, and the status that goes with it. -/
theorem adjustQuantity_fresh (rt : Runtime) (b : InventoryBatch) (quantity : ℤ)
    (r : InventoryBatch × InventoryBatch) :
    b.adjustQuantity rt b quantity = .ok r ↔
      b.status ≠ .closed ∧ 0 ≤ quantity ∧ quantity.toNat ≤ maxInteger ∧
        r = ({ b with quantity := quantity.toNat, status := statusOf quantity.toNat },
             { b with quantity := quantity.toNat, status := statusOf quantity.toNat }) := by
  unfold adjustQuantity
  simp only [bind_eq_ok, require_eq_ok, exists_const]
  refine and_congr_right (fun hb => and_congr_right (fun _ => ?_))
  have hopen : statusOf quantity.toNat ≠ .closed := by
    unfold statusOf; by_cases h : 0 < quantity.toNat <;> simp [h]
  rw [syncStatusFromQuantity_of_open { b with quantity := quantity.toNat } hb]
  simp only [Except.ok.injEq, exists_eq_left']
  exact save_quantity rt (by exact hopen) hb

/-- The batch is ACTIVE and holds the positive quantity asked for, and the column holds what is
    left. -/
structure Gives (b : InventoryBatch) (quantity : ℕ) : Prop where
  active : b.status = .active
  pos : 0 < quantity
  le : quantity ≤ b.quantity
  column : b.quantity - quantity ≤ maxInteger

/-- **Pick.** On a fresh instance `pick` succeeds iff the batch gives the quantity asked for, and
    then takes exactly that quantity. -/
theorem pick_fresh (rt : Runtime) (b : InventoryBatch) (quantity : ℕ)
    (r : InventoryBatch × InventoryBatch) :
    b.pick rt b quantity = .ok r ↔
      b.Gives quantity ∧
        r = ({ b with quantity := b.quantity - quantity, status := statusOf (b.quantity - quantity) },
             { b with quantity := b.quantity - quantity, status := statusOf (b.quantity - quantity) }) := by
  unfold pick removeQuantity
  simp only [bind_eq_ok, require_eq_ok, exists_const]
  unfold isAvailable
  have hopen : statusOf (b.quantity - quantity) ≠ .closed := by
    unfold statusOf; by_cases h : 0 < b.quantity - quantity <;> simp [h]
  -- `remove_quantity` keeps the instance in step, and the save writes it as it stands.
  constructor
  · rintro ⟨⟨hact, -⟩, self, ⟨hq, hle, hself⟩, hsave⟩
    have hb : b.status ≠ .closed := by rw [hact]; decide
    rw [syncStatusFromQuantity_of_open { b with quantity := b.quantity - quantity } hb,
      Except.ok.injEq] at hself
    subst hself
    obtain ⟨hcolumn, hr⟩ := (save_quantity rt (by exact hopen) hb).mp hsave
    exact ⟨⟨hact, hq, hle, hcolumn⟩, hr⟩
  · rintro ⟨⟨hact, hq, hle, hcolumn⟩, rfl⟩
    have hb : b.status ≠ .closed := by rw [hact]; decide
    refine ⟨⟨hact, by omega⟩, _, ⟨hq, hle, syncStatusFromQuantity_of_open _ hb⟩, ?_⟩
    exact (save_quantity rt (by exact hopen) hb).mpr ⟨hcolumn, rfl⟩

/-- **Close.** On a fresh instance `close` sets the status to CLOSED and stamps it. -/
theorem close_fresh (rt : Runtime) (b : InventoryBatch) (user : Option ℕ) :
    b.close rt b user =
      .ok ({ b with status := .closed, closedAt := some rt.now, closedBy := user },
           { b with status := .closed, closedAt := some rt.now, closedBy := user }) := by
  unfold close transitionTo save normalizeFields protectStatusTransition syncStatusFromQuantity
  cases hb : b.status <;>
    simp [hb, require, requireColumns, allowedStatusTransitions, writeFields, bind, Except.bind,
      pure, Except.pure]

/-- The edit stamp touches nothing else. -/
theorem markAsEdited_fresh (rt : Runtime) (b : InventoryBatch) (user : Option ℕ) :
    b.markAsEdited rt b user =
      .ok ({ b with editedAt := some rt.now, editedBy := user },
           { b with editedAt := some rt.now, editedBy := user }) := by
  simp [markAsEdited, save, normalizeFields, requireColumns, writeFields, bind, Except.bind, pure,
    Except.pure]

end InventoryBatch

end SwedeSweets
