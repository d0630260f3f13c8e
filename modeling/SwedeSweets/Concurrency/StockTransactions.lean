import SwedeSweets.Inventory.Services
import SwedeSweets.Lib.ReadCommitted
import SwedeSweets.Reservations.Effects

namespace SwedeSweets

open Relational Fallible Transition Interleaving ReadCommitted

/-!
# The stock services as transactions

Six services lock stock rows: reserving, consuming, cancelling and promoting reservations,
and correcting and closing a batch.  Here each of them is a transaction (`StockCall.tx`),
statement by statement: which rows its `select_for_update` locks and in which order, where
it reads the clock and the active reservations, what it writes.

`exec_tx` — on its own, the transaction does what the service computes.
-/

/-! ### Statements -/

/-- A row that a statement locks. -/
inductive RowId where
  | batch (pk : ℕ)
  | allocation (pk : ℕ)
  | product (pk : ℕ)
  deriving DecidableEq

/-- What a commit did to the physical quantity of a batch. -/
inductive StockEntry where
  | set (batchPk quantity : ℕ)
  | take (batchPk units : ℕ)
  deriving DecidableEq

abbrev StockTx := Tx RowId Db Error StockEntry

/-- A table whose rows the stock services lock. -/
class StockRow (α : Type) [Row α] where
  table : Db → Table α
  rowId : ℕ → RowId
  /-- The key of a row of this table. -/
  key : RowId → Option ℕ
  key_eq_some : ∀ {r n}, key r = some n ↔ r = rowId n

open StockRow

instance : StockRow InventoryBatch where
  table := Db.batches
  rowId := .batch
  key
    | .batch pk => some pk
    | .allocation _ | .product _ => none
  key_eq_some {r n} := by cases r <;> simp

instance : StockRow Allocation where
  table := Db.allocations
  rowId := .allocation
  key
    | .allocation pk => some pk
    | .batch _ | .product _ => none
  key_eq_some {r n} := by cases r <;> simp

@[simp] theorem table_batches (db : Db) : (table db : Table InventoryBatch) = db.batches := rfl

@[simp] theorem table_allocations (db : Db) : (table db : Table Allocation) = db.allocations := rfl

/-- What a lock on the row `r` returns: the row, when it still matches the query. -/
def lockedRow {α : Type} [Row α] [StockRow α] (query : α → Bool) (r : RowId) (db : Db) : List α :=
  match (key α r) with
  | some pk => ((table db).get? pk).toList.filter query
  | none => []

/-- `select_for_update` on the rows of a query, in the order that `sort` gives; `rows` are the
    rows that are locked for each of them. -/
def selectForUpdate {α : Type} [Row α] [StockRow α] (query : α → Bool)
    (sort : Db → List α → List α) (rows : α → List RowId) (k : List α → StockTx) : StockTx :=
  .read fun db =>
    .lockRows (lockedRow query) ((sort db ((table db).select query)).flatMap rows) [] k

/-- `select_for_update` on batches. -/
def lockBatches (query : BatchQuery) (sort : List InventoryBatch → List InventoryBatch) :
    (List InventoryBatch → StockTx) → StockTx :=
  selectForUpdate query (fun _ => sort) (fun b => [.batch b.pk])

/-- `select_for_update` on batches with `select_related("product")`: the joined row of the
    product is locked with each batch. -/
def lockBatchesAndProducts (query : BatchQuery)
    (sort : List InventoryBatch → List InventoryBatch) :
    (List InventoryBatch → StockTx) → StockTx :=
  selectForUpdate query (fun _ => sort) (fun b => [.batch b.pk, .product b.productId])

/-- `active_reserved_quantities_by_batch_pk`: first the clock, then the query. -/
def readReserved (batchPks : List ℕ) (k : Dict ℕ ℤ → StockTx) : StockTx :=
  .clock fun now => .read fun db => k (activeReservedQuantitiesByBatchPk now db batchPks)

/-- Save the rows of batches. -/
def saveBatches (rows : List InventoryBatch) (db : Db) : Db :=
  { db with batches := rows.foldl Table.put db.batches }

/-- Save the status of allocations. -/
def saveStatus (allocations : List Allocation) (status : AllocationStatus) (db : Db) : Db :=
  { db with
    allocations := db.allocations.modify
      (fun a => (allocations.map Allocation.pk).contains a.pk) (setStatus status) }

/-! ### Transactions -/

/-- `reserve_order_line_from_pool`. -/
def reserveTx (rt : Runtime) (orderLine : OrderLine) (batches : BatchQuery) (quantity : ℤ)
    (reservedUntil : Option Time) : StockTx :=
  lockBatchesAndProducts batches (List.insertionSort (lockOrder rt)) fun lockedBatches =>
  .attempt (validatePool orderLine lockedBatches) fun _ =>
  readReserved (lockedBatches.map InventoryBatch.pk) fun reserved =>
  .attempt (planReservation orderLine reservedUntil lockedBatches reserved quantity) fun rows =>
  .write (fun db => db.withReservations rows) <|
  .commit []

/-- `cancel_reservations_for_order`. -/
def cancelTx (orderPk : ℕ) : StockTx :=
  selectForUpdate (reservedOf orderPk) (fun _ => id) (fun a => [.allocation a.pk])
    fun allocations =>
  .attempt (allocations.mapM Allocation.cancel) fun _ =>
  .write (saveStatus allocations .cancelled) <|
  .commit []

/-- The row a pick writes, from the locked instance and the row persisted under it. -/
def pickedRow (rt : Runtime) (lockedBatches : List InventoryBatch) (db : Db) (pick : ℕ × ℕ) :
    Result InventoryBatch := do
  let batch ← orRaise (lockedBatches.find? (fun b => b.pk = pick.1)) .keyError
  let persisted ← db.getBatch pick.1
  let (_, row) ← batch.pick rt persisted pick.2
  return row

/-- `consume_reservations_for_order`.  The first statement joins the batch, so it locks the
    batch of each allocation with it. -/
def consumeTx (rt : Runtime) (orderPk : ℕ) : StockTx :=
  selectForUpdate (reservedOf orderPk) (fun db => List.insertionSort (consumeOrder rt db))
    (fun a => [.allocation a.pk, .batch a.batchId]) fun allocations =>
  .attempt (requireReservations orderPk allocations) fun _ =>
  let picks := quantityByBatchPk allocations
  lockBatches (fun b => picks.keys.contains b.pk) id fun lockedBatches =>
  .read fun db =>
  .attempt (picks.entries.mapM (pickedRow rt lockedBatches db)) fun rows =>
  .write (saveBatches rows) <|
  .attempt (allocations.mapM Allocation.consume) fun _ =>
  .write (saveStatus allocations .consumed) <|
  .commit (picks.entries.map (fun e => .take e.1 e.2))

/-- `update_batch`. -/
def updateBatchTx (rt : Runtime) (batchPk : ℕ) (quantity : ℤ) (bestBefore : Date)
    (location : String) (user : Option ℕ) : StockTx :=
  lockBatchesAndProducts (fun b => b.pk = batchPk) id fun lockedBatches =>
  .attempt (orRaise lockedBatches.head? (.doesNotExist "InventoryBatch")) fun batch =>
  .attempt (require (batch.status ≠ .closed)
    (.invalidStockOperation ("Batch " ++ batch.batchId ++ " is closed"))) fun _ =>
  readReserved [batch.pk] fun reserved =>
  .clock fun now =>
  .read fun db =>
  .attempt (db.getBatch batch.pk) fun persisted =>
  .attempt (correctedRow { rt with now := now } batch persisted (reserved.getD batch.pk 0) quantity
    bestBefore location user) fun row =>
  .write (saveBatches [row]) <|
  .commit [.set batch.pk quantity.toNat]

/-- `close_batch`. -/
def closeBatchTx (rt : Runtime) (batchPk : ℕ) (user : Option ℕ) : StockTx :=
  lockBatchesAndProducts (fun b => b.pk = batchPk) id fun lockedBatches =>
  .attempt (orRaise lockedBatches.head? (.doesNotExist "InventoryBatch")) fun batch =>
  readReserved [batch.pk] fun reserved =>
  .clock fun now =>
  .read fun db =>
  .attempt (db.getBatch batch.pk) fun persisted =>
  .attempt (closedRow { rt with now := now } batch persisted (reserved.getD batch.pk 0) user)
    fun row =>
  .write (saveBatches [row]) <|
  .commit []

/-- `make_reservations_permanent_for_order`, which reads the clock before it locks. -/
def promoteTx (orderPk : ℕ) : StockTx :=
  .clock fun now =>
  selectForUpdate (reservedOf orderPk) (fun _ => id) (fun a => [.allocation a.pk])
    fun reservations =>
  .attempt (promotable now orderPk reservations) fun activeReservations =>
  .write (makePermanent activeReservations) <|
  .commit []

/-- A call of one of the six services. -/
inductive StockCall where
  | reserve (orderLine : OrderLine) (batches : BatchQuery) (quantity : ℤ)
      (reservedUntil : Option Time)
  | consume (orderPk : ℕ)
  | cancel (orderPk : ℕ)
  | updateBatch (batchPk : ℕ) (quantity : ℤ) (bestBefore : Date) (location : String)
      (user : Option ℕ)
  | closeBatch (batchPk : ℕ) (user : Option ℕ)
  | promote (orderPk : ℕ)

namespace StockCall

/-- The transaction of a call.  It takes the text tables from `rt`, and the time from the
    clock of the store. -/
def tx (rt : Runtime) : StockCall → StockTx
  | reserve line batches quantity reservedUntil => reserveTx rt line batches quantity reservedUntil
  | consume orderPk => consumeTx rt orderPk
  | cancel orderPk => cancelTx orderPk
  | updateBatch pk quantity bestBefore location user =>
      updateBatchTx rt pk quantity bestBefore location user
  | closeBatch pk user => closeBatchTx rt pk user
  | promote orderPk => promoteTx orderPk

/-- The service, as one atomic step. -/
def service (rt : Runtime) (db : Db) : StockCall → Result Db
  | reserve line batches quantity reservedUntil =>
      reserveOrderLineFromPool rt db line batches quantity reservedUntil
  | consume orderPk => consumeReservationsForOrder rt db orderPk
  | cancel orderPk => cancelReservationsForOrder db orderPk
  | updateBatch pk quantity bestBefore location user =>
      SwedeSweets.updateBatch rt db pk quantity bestBefore location user
  | closeBatch pk user => SwedeSweets.closeBatch rt db pk user
  | promote orderPk => makeReservationsPermanentForOrder rt db orderPk

end StockCall

/-! ### One transaction on its own -/

section

variable {α : Type} [Row α] [StockRow α] {db : Db} {query : α → Bool}

/-- A lock returns the row it locks, or nothing. -/
theorem lockedRow_cases (query : α → Bool) (db : Db) (r : RowId) :
    lockedRow query r db = []
      ∨ ∃ x ∈ (table db : Table α), r = rowId α (Row.pk x) ∧ query x = true
          ∧ lockedRow query r db = [x] := by
  unfold lockedRow
  cases hkey : key α r with
  | none => exact Or.inl rfl
  | some n =>
    cases hget : (table db : Table α).get? n with
    | none => exact Or.inl (by simp [hget])
    | some x =>
      obtain ⟨hx, rfl⟩ := Table.get?_eq_some.mp hget
      by_cases hq : query x = true
      · exact Or.inr ⟨x, hx, key_eq_some.mp hkey, hq, by simp [hget, hq]⟩
      · exact Or.inl (by simp [hget, hq])

/-- Locking a row that matches the query returns it. -/
theorem lockedRow_self {x : α} (h : x ∈ (table db : Table α).select query) :
    lockedRow query (rowId α (Row.pk x)) db = [x] := by
  obtain ⟨hx, hq⟩ := Table.mem_select.mp h
  unfold lockedRow
  rw [show key α (rowId α (Row.pk x)) = some (Row.pk x) from key_eq_some.mpr rfl]
  simp [Table.get?_self hx, hq]

/-- Rows of the other table return nothing. -/
theorem flatMap_lockedRow (rs : List RowId) :
    rs.flatMap (fun r => lockedRow query r db)
      = (rs.filter (fun r => (key α r).isSome)).flatMap (fun r => lockedRow query r db) := by
  induction rs with
  | nil => rfl
  | cons r rs ih =>
    rw [List.flatMap_cons, ih]
    cases hkey : key α r with
    | none =>
      have hnil : lockedRow query r db = [] := by
        unfold lockedRow
        rw [hkey]
      simp [hkey, hnil]
    | some n => simp [hkey]

/-- Alone, a locking query returns its rows in the order asked for. -/
theorem exec_selectForUpdate {now : Time} {sort : Db → List α → List α}
    (hsort : ∀ xs, (sort db xs).Perm xs) {rows : α → List RowId}
    (hrows : ∀ x, (rows x).filter (fun r => (key α r).isSome) = [rowId α (Row.pk x)])
    {k : List α → StockTx} :
    (selectForUpdate query sort rows k).exec now db
      = (k (sort db ((table db).select query))).exec now db := by
  show (Tx.lockRows _ _ _ _).exec now db = _
  have hmem : ∀ x ∈ sort db ((table db).select query), x ∈ (table db : Table α).select query :=
    fun x hx => (hsort _).mem_iff.mp hx
  rw [Tx.exec_lockRows, List.nil_append, List.flatMap_assoc]
  generalize sort db ((table db).select query) = xs at hmem
  refine congrArg (fun ys => (k ys).exec now db) ?_
  -- Each row of the query yields itself, by induction on the rows.
  induction xs with
  | nil => rfl
  | cons x xs ih =>
    rw [List.flatMap_cons, ih (fun y hy => hmem y (List.mem_cons_of_mem _ hy)), flatMap_lockedRow,
      hrows, List.flatMap_cons, lockedRow_self (hmem x (by simp))]
    rfl

end

/-- Alone, the batches of a query are locked and returned in order. -/
theorem exec_lockBatches {now : Time} {db : Db} {query : BatchQuery}
    {sort : List InventoryBatch → List InventoryBatch} (hsort : ∀ bs, (sort bs).Perm bs)
    {k : List InventoryBatch → StockTx} :
    (lockBatches query sort k).exec now db = (k (sort (db.batches.select query))).exec now db :=
  exec_selectForUpdate hsort (fun _ => rfl)

/-- Locking their products as well changes nothing for a worker alone. -/
theorem exec_lockBatchesAndProducts {now : Time} {db : Db} {query : BatchQuery}
    {sort : List InventoryBatch → List InventoryBatch} (hsort : ∀ bs, (sort bs).Perm bs)
    {k : List InventoryBatch → StockTx} :
    (lockBatchesAndProducts query sort k).exec now db
      = (k (sort (db.batches.select query))).exec now db :=
  exec_selectForUpdate hsort (fun _ => rfl)

/-- Alone, the reserved quantities are those of the database at hand. -/
theorem exec_readReserved {now : Time} {db : Db} {batchPks : List ℕ} {k : Dict ℕ ℤ → StockTx} :
    (readReserved batchPks k).exec now db
      = (k (activeReservedQuantitiesByBatchPk now db batchPks)).exec now db := rfl

/-- A write of the status of a whole selection. -/
theorem saveStatus_eq {db : Db} {query : Allocation → Bool} {status : AllocationStatus}
    {as : List Allocation} (hperm : as.Perm (db.allocations.select query)) :
    saveStatus as status db
      = { db with allocations := db.allocations.modify query (setStatus status) } := by
  unfold saveStatus
  refine congrArg (fun t => { db with allocations := t }) (Table.modify_congr (fun a ha => ?_)
    (fun _ _ _ => rfl))
  rw [Bool.eq_iff_iff, List.contains_iff_mem, (hperm.map _).mem_iff, List.mem_map]
  constructor
  · rintro ⟨x, hx, hpk⟩
    obtain ⟨hx, hq⟩ := Table.mem_select.mp hx
    rwa [← Table.eq_of_pk_eq hx ha hpk]
  · exact fun hq => ⟨a, Table.mem_select.mpr ⟨ha, hq⟩, rfl⟩

/-- On its own, the transaction leaves the database `db'`. -/
def Leaves (tx : StockTx) (now : Time) (db db' : Db) : Prop :=
  ∃ note, tx.exec now db = .ok (db', note)

section

variable {rt : Runtime} {db db' : Db}

/-- **Alone, the transaction reserves as the service does.** -/
theorem exec_reserveTx {line : OrderLine} {batches : BatchQuery} {quantity : ℤ}
    {reservedUntil : Option Time} :
    Leaves (reserveTx rt line batches quantity reservedUntil) rt.now db db' ↔
      reserveOrderLineFromPool rt db line batches quantity reservedUntil = .ok db' := by
  unfold Leaves reserveTx reserveOrderLineFromPool
  rw [exec_lockBatchesAndProducts (fun bs => List.perm_insertionSort _ bs)]
  simp only [Tx.exec_attempt, exec_readReserved, Tx.exec, bind_eq_ok, pure_eq_ok, Except.ok.injEq,
    Prod.mk.injEq, Db.withReservations]
  constructor
  · rintro ⟨note, u, hpool, rows, hplan, rfl, -⟩
    exact ⟨u, hpool, rows, hplan, rfl⟩
  · rintro ⟨u, hpool, rows, hplan, rfl⟩
    exact ⟨[], u, hpool, rows, hplan, rfl, rfl⟩

/-- **Alone, the transaction cancels as the service does.** -/
theorem exec_cancelTx {now : Time} {o : ℕ} :
    Leaves (cancelTx o) now db db' ↔ cancelReservationsForOrder db o = .ok db' := by
  have hcancel : (db.allocations.select (reservedOf o)).mapM Allocation.cancel
      = .ok ((db.allocations.select (reservedOf o)).map (setStatus .cancelled).apply) :=
    mapM_eq_map (fun a ha =>
      Allocation.cancel_of_reserved (reservedOf_iff.mp (Table.mem_select.mp ha).2).2)
  unfold Leaves cancelTx
  rw [exec_selectForUpdate (fun as => List.Perm.refl (id as)) (fun _ => rfl),
    cancelReservationsForOrder_eq]
  simp only [id, table_allocations, Tx.exec_attempt, hcancel, Tx.exec, bind_eq_ok, Except.ok.injEq,
    exists_eq_left', Prod.mk.injEq, exists_and_left, exists_eq', and_true,
    saveStatus_eq (List.Perm.refl _)]
  rfl

/-- **Alone, the transaction promotes as the service does.** -/
theorem exec_promoteTx {o : ℕ} :
    Leaves (promoteTx o) rt.now db db' ↔ makeReservationsPermanentForOrder rt db o = .ok db' := by
  unfold Leaves promoteTx makeReservationsPermanentForOrder
  simp only [Tx.exec]
  rw [exec_selectForUpdate (fun as => List.Perm.refl (id as)) (fun _ => rfl)]
  simp only [Tx.exec_attempt, Tx.exec, bind_eq_ok, pure_eq_ok, Except.ok.injEq, Prod.mk.injEq]
  constructor
  · rintro ⟨note, rows, hrows, rfl, -⟩
    exact ⟨rows, hrows, rfl⟩
  · rintro ⟨rows, hrows, rfl⟩
    exact ⟨[], rows, hrows, rfl, rfl⟩

/-- The single batch that a correction or a closing locks. -/
theorem head?_select_pk {batchPk : ℕ} :
    orRaise (db.batches.select (fun b => b.pk = batchPk)).head? (Error.doesNotExist "InventoryBatch")
      = db.getBatch batchPk := by
  unfold Db.getBatch Table.get? Table.select
  rw [List.head?_filter]
  rfl

/-- **Alone, the transaction corrects a batch as the service does.** -/
theorem exec_updateBatchTx {batchPk : ℕ} {quantity : ℤ} {bestBefore : Date} {location : String}
    {user : Option ℕ} :
    Leaves (updateBatchTx rt batchPk quantity bestBefore location user) rt.now db db' ↔
      updateBatch rt db batchPk quantity bestBefore location user = .ok db' := by
  unfold Leaves updateBatchTx updateBatch
  rw [exec_lockBatchesAndProducts (fun bs => List.Perm.refl (id bs))]
  simp only [id, head?_select_pk, Tx.exec_attempt, exec_readReserved, Tx.exec, bind_eq_ok,
    Db.getBatch_eq_ok, pure_eq_ok, Except.ok.injEq, Prod.mk.injEq, saveBatches, List.foldl]
  constructor
  · rintro ⟨note, b, hb, u, hopen, b', hb', row, hrow, rfl, -⟩
    have hbb : b' = b := Table.eq_of_pk_eq (t := db.batches) hb'.1 hb.1 hb'.2
    subst hbb
    exact ⟨b', hb, u, hopen, row, hrow, rfl⟩
  · rintro ⟨b, hb, u, hopen, row, hrow, rfl⟩
    exact ⟨_, b, hb, u, hopen, b, ⟨hb.1, rfl⟩, row, hrow, rfl, rfl⟩

/-- **Alone, the transaction closes a batch as the service does.** -/
theorem exec_closeBatchTx {batchPk : ℕ} {user : Option ℕ} :
    Leaves (closeBatchTx rt batchPk user) rt.now db db' ↔
      closeBatch rt db batchPk user = .ok db' := by
  unfold Leaves closeBatchTx closeBatch
  rw [exec_lockBatchesAndProducts (fun bs => List.Perm.refl (id bs))]
  simp only [id, head?_select_pk, Tx.exec_attempt, exec_readReserved, Tx.exec, bind_eq_ok,
    Db.getBatch_eq_ok, pure_eq_ok, Except.ok.injEq, Prod.mk.injEq, saveBatches, List.foldl]
  constructor
  · rintro ⟨note, b, hb, b', hb', row, hrow, rfl, -⟩
    have hbb : b' = b := Table.eq_of_pk_eq (t := db.batches) hb'.1 hb.1 hb'.2
    subst hbb
    exact ⟨b', hb, row, hrow, rfl⟩
  · rintro ⟨b, hb, row, hrow, rfl⟩
    exact ⟨_, b, hb, b, ⟨hb.1, rfl⟩, row, hrow, rfl, rfl⟩

/-! ### Picking -/

/-- One pick from locked rows that are still those persisted. -/
theorem pickedRow_eq_ok {locked : List InventoryBatch} (hfresh : ∀ b ∈ locked, b ∈ db.batches)
    {pick : ℕ × ℕ} {row : InventoryBatch} :
    pickedRow rt locked db pick = .ok row ↔ ∃ b ∈ locked, b.pk = pick.1 ∧ b.Gives pick.2
      ∧ row = (takeUnits (fun _ => pick.2)).apply b := by
  unfold pickedRow
  simp only [bind_eq_ok, orRaise_eq_ok, Db.getBatch_eq_ok, pure_eq_ok]
  -- The locked batch is the one on file, so the fresh read finds the same row.
  constructor
  · rintro ⟨b, hfind, b', ⟨hb', hk'⟩, r, hpick, rfl⟩
    have hb : b ∈ locked := List.mem_of_find?_eq_some hfind
    have hk : b.pk = pick.1 := by simpa using List.find?_some hfind
    have hbb : b' = b := Table.eq_of_pk_eq (t := db.batches) hb' (hfresh b hb) (hk'.trans hk.symm)
    subst hbb
    obtain ⟨hgives, rfl⟩ := (InventoryBatch.pick_fresh rt b' pick.2 r).mp hpick
    exact ⟨b', hb, hk, hgives, rfl⟩
  · rintro ⟨b, hb, hk, hgives, rfl⟩
    have hsome : (locked.find? (fun x => x.pk = pick.1)).isSome :=
      List.find?_isSome.mpr ⟨b, hb, by simpa using hk⟩
    obtain ⟨b', hfind⟩ := Option.isSome_iff_exists.mp hsome
    have hk' : b'.pk = pick.1 := by simpa using List.find?_some hfind
    have hbb : b' = b := Table.eq_of_pk_eq (t := db.batches)
      (hfresh b' (List.mem_of_find?_eq_some hfind)) (hfresh b hb) (hk'.trans hk.symm)
    subst hbb
    exact ⟨b', hfind, b', ⟨hfresh b' hb, hk⟩, _,
      (InventoryBatch.pick_fresh rt b' pick.2 _).mpr ⟨hgives, rfl⟩, rfl⟩

/-- All picks: each batch of the dictionary gives its units. -/
theorem pickedRows_eq_ok {locked : List InventoryBatch} (hfresh : ∀ b ∈ locked, b ∈ db.batches)
    {picks : Dict ℕ ℕ} {rows : List InventoryBatch}
    (h : picks.entries.mapM (pickedRow rt locked db) = .ok rows) :
    ∃ bs : List InventoryBatch, bs.map InventoryBatch.pk = picks.keys
      ∧ (∀ b ∈ bs, b ∈ locked ∧ b.Gives (picks.getD b.pk 0))
      ∧ rows = bs.map (takeUnits (fun k => picks.getD k 0)).apply := by
  have hget : ∀ e ∈ picks.entries, picks.getD e.1 0 = e.2 := fun e he => Dict.getD_of_mem he 0
  have hall := forall₂_of_mapM h
  unfold Dict.keys
  clear h
  generalize picks.entries = es at hget hall ⊢
  -- By induction on the picks.
  induction hall with
  | nil => exact ⟨[], rfl, by simp, rfl⟩
  | @cons e row es rows hrow _ ih =>
    obtain ⟨b, hb, hk, hgives, rfl⟩ := (pickedRow_eq_ok hfresh).mp hrow
    obtain ⟨bs, hkeys, hbs, rfl⟩ := ih (fun x hx => hget x (List.mem_cons_of_mem _ hx))
    have htaken : picks.getD b.pk 0 = e.2 := by rw [hk]; exact hget e (by simp)
    refine ⟨b :: bs, by simp [hk, hkeys], fun x hx => ?_, by simp [takeUnits, htaken]⟩
    rcases List.mem_cons.mp hx with rfl | hx
    · exact ⟨hb, htaken.symm ▸ hgives⟩
    · exact hbs x hx

/-- Saving the picked rows takes the units from each batch of the dictionary. -/
theorem saveBatches_picked {picks : Dict ℕ ℕ} {bs : List InventoryBatch}
    (hkeys : bs.map InventoryBatch.pk = picks.keys) (hbs : ∀ b ∈ bs, b ∈ db.batches) :
    saveBatches (bs.map (takeUnits (fun k => picks.getD k 0)).apply) db
      = { db with
          batches := db.batches.modify (fun b => picks.keys.contains b.pk)
            (takeUnits (fun k => picks.getD k 0)) } := by
  have hnd : (bs.map InventoryBatch.pk).Nodup := hkeys ▸ picks.nodup
  -- The rows saved are exactly those of the picked keys.
  have hperm : bs.Perm (db.batches.select (fun b => picks.keys.contains b.pk)) := by
    refine (List.perm_ext_iff_of_nodup (List.Nodup.of_map _ hnd)
      (List.Nodup.of_map _ (db.batches.select_nodup_pk _))).mpr (fun b => ?_)
    rw [Table.mem_select, List.contains_iff_mem, ← hkeys]
    constructor
    · exact fun hb => ⟨hbs b hb, List.mem_map_of_mem hb⟩
    · rintro ⟨hb, hk⟩
      obtain ⟨x, hx, hpk⟩ := List.mem_map.mp hk
      rwa [← Table.eq_of_pk_eq (hbs x hx) hb hpk]
  unfold saveBatches
  rw [List.foldl_map, Table.foldl_put_eq_modify db.batches _ _ hperm]

/-- Picking from the locked rows is picking one batch after the other. -/
theorem pickedRows_iff {picks : Dict ℕ ℕ} :
    (∃ rows, picks.entries.mapM (pickedRow rt
          (db.batches.select (fun b => picks.keys.contains b.pk)) db) = .ok rows
        ∧ saveBatches rows db = db')
      ↔ picks.entries.foldlM (pickBatch rt) db = .ok db' := by
  have hfresh : ∀ b ∈ db.batches.select (fun b => picks.keys.contains b.pk), b ∈ db.batches :=
    fun b hb => (Table.mem_select.mp hb).1
  have hget : ∀ e ∈ picks.entries, picks.getD e.1 0 = e.2 := fun e he => Dict.getD_of_mem he 0
  rw [pickBatches_foldlM_eq_ok picks.nodup]
  -- Both ways the picked batches are named by the keys of the picks.
  constructor
  · rintro ⟨rows, hrows, rfl⟩
    obtain ⟨bs, hkeys, hbs, rfl⟩ := pickedRows_eq_ok hfresh hrows
    refine ⟨fun e he => ?_, saveBatches_picked hkeys (fun b hb => hfresh b (hbs b hb).1)⟩
    have hk : e.1 ∈ bs.map InventoryBatch.pk := hkeys ▸ List.mem_map_of_mem he
    obtain ⟨b, hb, hbk⟩ := List.mem_map.mp hk
    obtain ⟨hmem, hgives⟩ := hbs b hb
    rw [hbk, hget e he] at hgives
    exact ⟨b, hfresh b hmem, hbk, hgives⟩
  · rintro ⟨hall, rfl⟩
    obtain ⟨rows, hrows⟩ := mapM_ok (f := pickedRow rt
        (db.batches.select (fun b => picks.keys.contains b.pk)) db) (fun e he => by
      obtain ⟨b, hb, hk, hgives⟩ := hall e he
      have hmem : b ∈ db.batches.select (fun b => picks.keys.contains b.pk) :=
        Table.mem_select.mpr ⟨hb, List.contains_iff_mem.mpr (hk ▸ List.mem_map_of_mem he)⟩
      exact ⟨_, (pickedRow_eq_ok hfresh).mpr ⟨b, hmem, hk, hgives, rfl⟩⟩)
    obtain ⟨bs, hkeys, hbs, rfl⟩ := pickedRows_eq_ok hfresh hrows
    exact ⟨_, hrows, saveBatches_picked hkeys (fun b hb => hfresh b (hbs b hb).1)⟩

/-- **Alone, the transaction consumes as the service does.** -/
theorem exec_consumeTx {o : ℕ} :
    Leaves (consumeTx rt o) rt.now db db' ↔ consumeReservationsForOrder rt db o = .ok db' := by
  unfold Leaves consumeTx consumeReservationsForOrder
  have hsort : ∀ as, (List.insertionSort (consumeOrder rt db) as).Perm as :=
    fun as => List.perm_insertionSort _ as
  rw [exec_selectForUpdate hsort (fun _ => rfl)]
  have hperm := hsort (db.allocations.select (reservedOf o))
  generalize List.insertionSort (consumeOrder rt db) (db.allocations.select (reservedOf o)) = as
    at *
  have hres : ∀ a ∈ as, a.status = .reserved := fun a ha =>
    (reservedOf_iff.mp (Table.mem_select.mp (hperm.mem_iff.mp ha)).2).2
  have hconsume : as.mapM Allocation.consume = .ok (as.map (setStatus .consumed).apply) :=
    mapM_eq_map (fun a ha => Allocation.consume_of_reserved (hres a ha))
  -- Saving the consumed allocations writes their status and nothing else.
  have hsave : ∀ d : Db, d.allocations = db.allocations →
      saveAllocations d Allocation.consume as = .ok (saveStatus as .consumed d) := by
    intro d hd
    have hperm' : as.Perm (d.allocations.select (reservedOf o)) := by rwa [hd]
    rw [saveStatus_eq hperm']
    exact saveAllocations_eq hperm' (fun a ha => Allocation.consume_of_reserved (hres a ha))
  simp only [exec_lockBatches (fun bs => List.Perm.refl (id bs)), id, Tx.exec_attempt, Tx.exec,
    bind_eq_ok, hconsume, Except.ok.injEq, exists_eq_left', Prod.mk.injEq, ← pickedRows_iff]
  constructor
  · rintro ⟨note, u, hne, rows, hpick, rfl, -⟩
    exact ⟨u, hne, saveBatches rows db, ⟨rows, hpick, rfl⟩, hsave _ rfl⟩
  · rintro ⟨u, hne, d, ⟨rows, hpick, rfl⟩, hd⟩
    rw [hsave (saveBatches rows db) rfl, Except.ok.injEq] at hd
    exact ⟨_, u, hne, rows, hpick, hd, rfl⟩

/-- **On its own** the transaction of a call does what the service computes. -/
theorem exec_tx (call : StockCall) :
    Leaves (call.tx rt) rt.now db db' ↔ call.service rt db = .ok db' := by
  cases call with
  | reserve => exact exec_reserveTx
  | consume => exact exec_consumeTx
  | cancel => exact exec_cancelTx
  | updateBatch => exact exec_updateBatchTx
  | closeBatch => exact exec_closeBatchTx
  | promote => exact exec_promoteTx

end

/-- **Alone.** A worker that is not interrupted commits what the service computes. -/
theorem alone_tx {ω : Type} [DecidableEq ω] {w : ω} {call : StockCall} {rt : Runtime} {db' : Db}
    {s : Store RowId Db StockEntry ω} (hfree : ∀ r, s.locks r = none) (hnow : rt.now = s.clock)
    (h : call.service rt s.db = .ok db') :
    ∃ s', (transactions RowId Db Error StockEntry ω).Alone w s (.running id (call.tx rt)) s'
      .committed ∧ s'.db = db' := by
  obtain ⟨note, hexec⟩ := (exec_tx call).mpr h
  obtain ⟨s', halone, -, hdb, -⟩ := alone_exec (w := w) (f := id) (fun r => Or.inl (hfree r))
    (hnow ▸ hexec)
  exact ⟨s', halone, hdb⟩

end SwedeSweets
