import SwedeSweets.Reservations.Selectors
import Mathlib.Data.List.Sort

namespace SwedeSweets

open Relational Fallible

/-!
# Inventory services

Creating, correcting and closing a batch.  `createBatch_eq_ok`, `updateBatch_eq_ok` and
`closeBatch_eq_ok` say what a successful call writes: one new batch, or one rewritten.
-/

/-! ### Batch ids -/

def batchIdMissingProductCode : String := "PX"

def batchIdTextPartLength : ℕ := 3

def batchIdSequenceWidth : ℕ := 3

def batchTextPart (rt : Runtime) (value : String) : String :=
  let characters := (((rt.nfkd value).toList.filter (fun c => c.toNat < 128)).map
    Char.toUpper).filter Char.isAlphanum
  if characters = [] then "XXX"
  else
    let part := characters.take batchIdTextPartLength
    String.ofList (part ++ List.replicate (batchIdTextPartLength - part.length) 'X')

def batchProductCode (product : Product) : String :=
  match product.internalNumber with
  | some n => if n = 0 then batchIdMissingProductCode else "P" ++ Text.padded 3 n
  | none => batchIdMissingProductCode

def batchIdPrefix (rt : Runtime) (product : Product) : String :=
  batchProductCode product ++ "-" ++ batchTextPart rt product.brand ++ "-"
    ++ batchTextPart rt product.name

/-- `rsplit("-", 1)[1]` of a text that has a hyphen. -/
def afterLastHyphen (s : String) : String :=
  String.ofList (s.toList.reverse.takeWhile (· ≠ '-')).reverse

/-- Generate the next local batch id for a product. -/
def generateBatchId (rt : Runtime) (db : Db) (product : Product) : Result String := do
  let stem := batchIdPrefix rt product
  let latestBatch := ((db.batches.select
    (fun b => (stem ++ "-").toList.isPrefixOf b.batchId.toList)).insertionSort
      (fun a b => rt.textLe b.batchId a.batchId = true)).head?
  let nextNumber ← match latestBatch with
    | none => pure 1
    | some batch => do
        let lastNumber ← orRaise (Text.int rt.decimal (afterLastHyphen batch.batchId))
          (.valueError "invalid literal for int()")
        pure (lastNumber + 1)
  return stem ++ "-" ++ Text.paddedInt batchIdSequenceWidth nextNumber

/-! ### Services -/

/-- A new batch row.  `save` gives it the status of its quantity and `mark_as_created` its
    creator. -/
def newBatch (rt : Runtime) (batchId : String) (product : Product) (quantity : ℕ)
    (bestBefore : Date) (location : String) (user : Option ℕ) : NewRow InventoryBatch where
  make pk :=
    { pk := pk
      batchId := batchId
      productId := product.pk
      quantity := quantity
      bestBefore := bestBefore
      location := location
      status := InventoryBatch.statusOf quantity
      createdAt := rt.now
      createdBy := user
      editedAt := none
      editedBy := none
      closedAt := none
      closedBy := none }
  pk_make _ := rfl

/-- Insert a batch whose columns hold its values, under an id that no other batch has. -/
def createBatchWithId (rt : Runtime) (db : Db) (batchId : String) (product : Product)
    (quantity : ℕ) (bestBefore : Date) (location : String) (user : Option ℕ) : Result Db := do
  let batchId ← normalizeBatchId rt batchId
  let location ← normalizeLocation location
  requireInteger quantity
  requireFits maxBatchIdLength batchId
  requireFits maxLocationLength location
  require (∀ b ∈ db.batches.rows, b.batchId ≠ batchId)
    (.integrityError "inventory_inventorybatch_batch_id_key")
  return { db with
    batches := db.batches.insert (newBatch rt batchId product quantity bestBefore location user) }

/-- Create a new physical inventory batch.  The loop of the source makes one attempt: an
    integrity error breaks the transaction, and the query of the next attempt then raises. -/
def createBatch (rt : Runtime) (db : Db) (productPk : ℕ) (quantity : ℤ) (bestBefore : Date)
    (location : String) (batchId : Option String) (today : Option Date)
    (allowNonFutureBestBefore : Bool) (user : Option ℕ) : Result Db := do
  let product ← db.getProduct productPk
  let today := today.getD rt.today
  require (0 < quantity) (.invalidStockOperation "quantity must be positive")
  require (today < bestBefore ∨ allowNonFutureBestBefore = true)
    (.invalidStockOperation "best_before date must be in the future")
  match batchId.filter (· ≠ "") with
  | some batchId => do
      let normalizedBatchId ← normalizeBatchId rt batchId
      (createBatchWithId rt db normalizedBatchId product quantity.toNat bestBefore location
        user).mapError (fun
          | .integrityError _ =>
              .invalidStockOperation ("Batch " ++ normalizedBatchId ++ " already exists")
          | e => e)
  | none => do
      let generatedBatchId ← generateBatchId rt db product
      (createBatchWithId rt db generatedBatchId product quantity.toNat bestBefore location
        user).mapError (fun
          | .integrityError _ => .transactionManagementError
          | e => e)

/-- The row a correction writes, from the locked instance, the row persisted under it and
    what is reserved on the batch. -/
def correctedRow (rt : Runtime) (batch persisted : InventoryBatch) (reservedQuantity : ℤ)
    (quantity : ℤ) (bestBefore : Date) (location : String) (user : Option ℕ) :
    Result InventoryBatch := do
  require (reservedQuantity ≤ quantity)
    (.invalidStockOperation ("Cannot set batch " ++ batch.batchId ++ " to " ++ toString quantity
      ++ " units; " ++ toString reservedQuantity ++ " units are reserved."))
  let (batch, row) ← batch.adjustQuantity rt persisted quantity
  let (batch, row) ← InventoryBatch.save rt
    { batch with bestBefore := bestBefore, location := location } row [.bestBefore, .location]
  let (_, row) ← batch.markAsEdited rt row user
  return row

/-- Correct the editable fields of a physical batch. -/
def updateBatch (rt : Runtime) (db : Db) (batchPk : ℕ) (quantity : ℤ) (bestBefore : Date)
    (location : String) (user : Option ℕ) : Result Db := do
  let batch ← db.getBatch batchPk
  require (batch.status ≠ .closed)
    (.invalidStockOperation ("Batch " ++ batch.batchId ++ " is closed"))
  let row ← correctedRow rt batch batch (activeReservedQuantityForBatchPk rt.now db batch.pk)
    quantity bestBefore location user
  return { db with batches := db.batches.put row }

/-- The row a closing writes, likewise. -/
def closedRow (rt : Runtime) (batch persisted : InventoryBatch) (reservedQuantity : ℤ)
    (user : Option ℕ) : Result InventoryBatch := do
  require (reservedQuantity ≤ 0)
    (.invalidStockOperation ("Cannot close batch " ++ batch.batchId ++ "; "
      ++ toString reservedQuantity ++ " units are reserved."))
  let (_, row) ← batch.close rt persisted user
  return row

/-- Close a batch so it is no longer orderable. -/
def closeBatch (rt : Runtime) (db : Db) (batchPk : ℕ) (user : Option ℕ) : Result Db := do
  let batch ← db.getBatch batchPk
  let row ← closedRow rt batch batch (activeReservedQuantityForBatchPk rt.now db batch.pk) user
  return { db with batches := db.batches.put row }

/-! ### What they write -/

/-- The batch is inserted with the quantity asked for. -/
theorem createBatchWithId_eq_ok {rt : Runtime} {db db' : Db} {batchId : String}
    {product : Product} {quantity : ℕ} {bestBefore : Date} {location : String}
    {user : Option ℕ}
    (h : createBatchWithId rt db batchId product quantity bestBefore location user = .ok db') :
    quantity ≤ maxInteger ∧ ∃ batchId location, db' = { db with
      batches := db.batches.insert (newBatch rt batchId product quantity bestBefore location user) } := by
  unfold createBatchWithId at h
  simp only [bind_eq_ok, require_eq_ok, requireInteger_eq_ok, requireFits_eq_ok, exists_const,
    pure_eq_ok] at h
  obtain ⟨batchId, -, location, -, hquantity, -, -, -, rfl⟩ := h
  exact ⟨hquantity, batchId, location, rfl⟩

/-- A new batch starts with the positive quantity asked for, which its column holds. -/
theorem createBatch_eq_ok {rt : Runtime} {db db' : Db} {productPk : ℕ} {quantity : ℤ}
    {bestBefore : Date} {location : String} {batchId : Option String} {today : Option Date}
    {allow : Bool} {user : Option ℕ}
    (h : createBatch rt db productPk quantity bestBefore location batchId today allow user
      = .ok db') :
    0 < quantity ∧ quantity.toNat ≤ maxInteger ∧ ∃ product batchId location, db' = { db with
      batches := db.batches.insert
        (newBatch rt batchId product quantity.toNat bestBefore location user) } := by
  unfold createBatch at h
  simp only [bind_eq_ok, require_eq_ok, exists_const] at h
  obtain ⟨product, -, hq, -, h⟩ := h
  refine ⟨hq, ?_⟩
  -- a given id and a generated one are inserted alike
  cases hid : batchId.filter (· ≠ "") with
  | some b =>
    simp only [hid, bind_eq_ok, mapError_eq_ok] at h
    obtain ⟨n, -, h⟩ := h
    obtain ⟨hcolumn, hrow⟩ := createBatchWithId_eq_ok h
    exact ⟨hcolumn, product, hrow⟩
  | none =>
    simp only [hid, bind_eq_ok, mapError_eq_ok] at h
    obtain ⟨n, -, h⟩ := h
    obtain ⟨hcolumn, hrow⟩ := createBatchWithId_eq_ok h
    exact ⟨hcolumn, product, hrow⟩

/-- Saving the text fields of an instance that matches its row changes these fields only. -/
private theorem save_location {rt : Runtime} {b persisted : InventoryBatch}
    {r : InventoryBatch × InventoryBatch}
    (h : InventoryBatch.save rt b persisted [.bestBefore, .location] = .ok r) :
    ∃ location, r = ({ b with location := location },
      { persisted with bestBefore := b.bestBefore, location := location }) := by
  unfold InventoryBatch.save InventoryBatch.normalizeFields InventoryBatch.requireColumns at h
  simp only [List.mem_cons, reduceCtorEq, List.not_mem_nil, or_false, or_true, if_true, if_false,
    bind_eq_ok, pure_eq_ok] at h
  obtain ⟨-, ⟨-, rfl, location, -, rfl⟩, -, -, rfl⟩ := h
  exact ⟨location, by simp [InventoryBatch.writeFields]⟩

/-- The row of a correction, when the instance is fresh. -/
theorem correctedRow_eq_ok {rt : Runtime} {b row : InventoryBatch} {reservedQuantity quantity : ℤ}
    {bestBefore : Date} {location : String} {user : Option ℕ}
    (h : correctedRow rt b b reservedQuantity quantity bestBefore location user = .ok row) :
    b.status ≠ .closed ∧ reservedQuantity ≤ quantity ∧ 0 ≤ quantity ∧ quantity.toNat ≤ maxInteger
      ∧ ∃ location, row = { b with
          quantity := quantity.toNat
          status := InventoryBatch.statusOf quantity.toNat
          bestBefore := bestBefore
          location := location
          editedAt := some rt.now
          editedBy := user } := by
  unfold correctedRow at h
  simp only [bind_eq_ok, require_eq_ok, exists_const, pure_eq_ok,
    InventoryBatch.adjustQuantity_fresh] at h
  obtain ⟨hres, r, ⟨hopen, hq, hcolumn, rfl⟩, r', hsave, r'', hmark, rfl⟩ := h
  obtain ⟨location, rfl⟩ := save_location hsave
  rw [InventoryBatch.markAsEdited_fresh, Except.ok.injEq] at hmark
  subst hmark
  exact ⟨hopen, hres, hq, hcolumn, location, rfl⟩

/-- A correction sets quantity and status of one open batch, and never below what is
    actively reserved. -/
theorem updateBatch_eq_ok {rt : Runtime} {db db' : Db} {batchPk : ℕ} {quantity : ℤ}
    {bestBefore : Date} {location : String} {user : Option ℕ}
    (h : updateBatch rt db batchPk quantity bestBefore location user = .ok db') :
    ∃ b ∈ db.batches, b.pk = batchPk ∧ b.status ≠ .closed
      ∧ db.activeReserved rt.now batchPk ≤ quantity.toNat
      ∧ 0 ≤ quantity ∧ quantity.toNat ≤ maxInteger
      ∧ ∃ location, db' = { db with
          batches := db.batches.put { b with
            quantity := quantity.toNat
            status := InventoryBatch.statusOf quantity.toNat
            bestBefore := bestBefore
            location := location
            editedAt := some rt.now
            editedBy := user } } := by
  unfold updateBatch at h
  simp only [bind_eq_ok, require_eq_ok, exists_const, pure_eq_ok, Db.getBatch_eq_ok,
    activeReservedQuantityForBatchPk_eq] at h
  obtain ⟨b, ⟨hb, rfl⟩, -, row, hrow, rfl⟩ := h
  obtain ⟨hopen, hres, hq, hcolumn, location, rfl⟩ := correctedRow_eq_ok hrow
  exact ⟨b, hb, rfl, hopen, by omega, hq, hcolumn, location, rfl⟩

/-- The row of a closing, when the instance is fresh. -/
theorem closedRow_eq_ok {rt : Runtime} {b row : InventoryBatch} {reservedQuantity : ℤ}
    {user : Option ℕ} :
    closedRow rt b b reservedQuantity user = .ok row ↔ reservedQuantity ≤ 0
      ∧ row = { b with status := .closed, closedAt := some rt.now, closedBy := user } := by
  unfold closedRow
  simp only [bind_eq_ok, require_eq_ok, exists_const, pure_eq_ok, InventoryBatch.close_fresh,
    Except.ok.injEq, exists_eq_left']
  exact and_congr_right (fun _ => eq_comm)

/-- Closing needs a batch without active reservations and keeps its quantity. -/
theorem closeBatch_eq_ok {rt : Runtime} {db db' : Db} {batchPk : ℕ} {user : Option ℕ} :
    closeBatch rt db batchPk user = .ok db' ↔
      ∃ b ∈ db.batches, b.pk = batchPk ∧ db.activeReserved rt.now batchPk = 0
        ∧ db' = { db with
            batches := db.batches.put { b with
              status := .closed, closedAt := some rt.now, closedBy := user } } := by
  unfold closeBatch
  simp only [bind_eq_ok, pure_eq_ok, Db.getBatch_eq_ok, activeReservedQuantityForBatchPk_eq,
    closedRow_eq_ok]
  constructor
  · rintro ⟨b, ⟨hb, rfl⟩, row, ⟨hres, rfl⟩, rfl⟩
    exact ⟨b, hb, rfl, by omega, rfl⟩
  · rintro ⟨b, hb, rfl, hres, rfl⟩
    exact ⟨b, ⟨hb, rfl⟩, _, ⟨by omega, rfl⟩, rfl⟩

end SwedeSweets
