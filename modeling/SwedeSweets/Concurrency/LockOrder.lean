import SwedeSweets.Business.Edits
import SwedeSweets.Concurrency.OrderTransactions
import SwedeSweets.Invariants.Lifecycle
import SwedeSweets.Lib.WaitFor
import Mathlib.Data.List.Sort

namespace SwedeSweets

open Relational Fallible ReadCommitted

/-!
# In which order batches and products are locked

Each reserving query locks the batches of one pool by best-before date, batch id and key, each
with its product, and packing locks the batches of the order's allocations in that order; but an
order runs one reserving query after the other, in the order of its lines.

* `route` — the rows of batches and products a call may request, in the order in which it does,
  read off the database before the call.  A batch that packing may take from (`taken`) may drop
  out of a query that runs later, and its product with it; every other row is certain.
* `OrderRely` — what a call relies on calls for other orders to leave alone;
* `fulfils_pool`, `fulfils_consumed` — whatever the other calls commit meanwhile, what a query
  locks is what was planned for it.
-/

/-! ### Sorting -/

/-- Sorting fewer elements leaves some of the sorted ones out. -/
theorem sublist_insertionSort_of_sublist {α : Type} {r : α → α → Prop} [DecidableRel r]
    [Std.Total r] [IsTrans α r] {xs ys : List α} (h : xs.Sublist ys) :
    (xs.insertionSort r).Sublist (ys.insertionSort r) := by
  induction h with
  | slnil => exact List.Sublist.refl _
  | cons y _ ih => exact ih.trans (List.sublist_orderedInsert y _)
  | cons_cons y _ ih =>
    exact List.Sublist.orderedInsert_sublist y ih (List.pairwise_insertionSort r _)

/-- The collation of the database compares all texts, and consistently. -/
structure Runtime.Collates (rt : Runtime) : Prop where
  total : ∀ a b, rt.textLe a b = true ∨ rt.textLe b a = true
  trans : ∀ a b c, rt.textLe a b = true → rt.textLe b c = true → rt.textLe a c = true

/-- What the two orders compare rows by: a date, a text, and a key. -/
def sortKeyLe (rt : Runtime) (x y : Date × String × ℕ) : Prop :=
  x.1 < y.1 ∨ (x.1 = y.1 ∧
    ((rt.textLe x.2.1 y.2.1 = true ∧ rt.textLe y.2.1 x.2.1 = false)
      ∨ (rt.textLe x.2.1 y.2.1 = true ∧ rt.textLe y.2.1 x.2.1 = true ∧ x.2.2 ≤ y.2.2)))

instance (rt : Runtime) (x y : Date × String × ℕ) : Decidable (sortKeyLe rt x y) := by
  unfold sortKeyLe; infer_instance

section

variable {rt : Runtime}

/-- Two keys can always be compared. -/
theorem Runtime.Collates.sortKeyLe_total (h : rt.Collates) (x y : Date × String × ℕ) :
    sortKeyLe rt x y ∨ sortKeyLe rt y x := by
  unfold sortKeyLe
  rcases Nat.lt_trichotomy x.1 y.1 with hlt | heq | hlt
  · exact Or.inl (Or.inl hlt)
  · have htotal := h.total x.2.1 y.2.1
    have hkeys := Nat.le_total x.2.2 y.2.2
    cases hxy : rt.textLe x.2.1 y.2.1 <;> cases hyx : rt.textLe y.2.1 x.2.1 <;>
      simp_all
  · exact Or.inr (Or.inl hlt)

/-- Keys are compared consistently. -/
theorem Runtime.Collates.sortKeyLe_trans (h : rt.Collates) {x y z : Date × String × ℕ}
    (hxy : sortKeyLe rt x y) (hyz : sortKeyLe rt y z) : sortKeyLe rt x z := by
  unfold sortKeyLe at *
  rcases hxy with hxy | ⟨hd, hxy⟩
  · rcases hyz with hyz | ⟨hd, -⟩
    · exact Or.inl (Nat.lt_trans hxy hyz)
    · exact Or.inl (hd ▸ hxy)
  · rcases hyz with hyz | ⟨hd', hyz⟩
    · exact Or.inl (hd ▸ hyz)
    · refine Or.inr ⟨hd.trans hd', ?_⟩
      have hle : rt.textLe x.2.1 z.2.1 = true := by
        refine h.trans _ y.2.1 _ ?_ ?_
        · rcases hxy with hxy | hxy <;> exact hxy.1
        · rcases hyz with hyz | hyz <;> exact hyz.1
      cases hback : rt.textLe z.2.1 x.2.1 with
      | false => exact Or.inl ⟨hle, rfl⟩
      | true =>
        -- the three texts are all equivalent, so the keys decide
        have hyx : rt.textLe y.2.1 x.2.1 = true := by
          refine h.trans _ z.2.1 _ ?_ hback
          rcases hyz with hyz | hyz <;> exact hyz.1
        have hzy : rt.textLe z.2.1 y.2.1 = true := by
          refine h.trans _ x.2.1 _ hback ?_
          rcases hxy with hxy | hxy <;> exact hxy.1
        rcases hxy with ⟨-, hno⟩ | ⟨-, -, hk⟩
        · rw [hyx] at hno
          cases hno
        · rcases hyz with ⟨-, hno⟩ | ⟨-, -, hk'⟩
          · rw [hzy] at hno
            cases hno
          · exact Or.inr ⟨hle, rfl, hk.trans hk'⟩

/-- Batches are sorted by best-before date, batch id and key. -/
theorem lockOrder_iff {b b' : InventoryBatch} :
    lockOrder rt b b' ↔ sortKeyLe rt (b.bestBefore, b.batchId, b.pk)
      (b'.bestBefore, b'.batchId, b'.pk) :=
  Iff.rfl

/-- The query that reserves sorts by a total preorder. -/
theorem Runtime.Collates.lockOrder_total (h : rt.Collates) : Std.Total (lockOrder rt) :=
  ⟨fun b b' => h.sortKeyLe_total (b.bestBefore, b.batchId, b.pk) (b'.bestBefore, b'.batchId, b'.pk)⟩

/-- Batches are compared consistently. -/
theorem Runtime.Collates.lockOrder_trans (h : rt.Collates) :
    IsTrans InventoryBatch (lockOrder rt) :=
  ⟨fun _ _ _ hab hbc => h.sortKeyLe_trans (lockOrder_iff.mp hab) (lockOrder_iff.mp hbc)⟩

end

/-! ### The batches of a query, whatever is in stock -/

/-- The batch as it is when it is in stock: what no order service changes of it. -/
def InventoryBatch.inStock (b : InventoryBatch) : InventoryBatch :=
  { b with quantity := 1, status := .active }

@[simp] theorem InventoryBatch.inStock_pk (b : InventoryBatch) : b.inStock.pk = b.pk := rfl

/-- Batches that agree when they are in stock have one key. -/
theorem InventoryBatch.pk_of_inStock {b b' : InventoryBatch} (h : b.inStock = b'.inStock) :
    b.pk = b'.pk := by
  rw [← b.inStock_pk, h, b'.inStock_pk]

/-- The batch as a query finds it at most: in stock, when packing may take from it meanwhile. -/
def InventoryBatch.assumed (taken : List ℕ) (b : InventoryBatch) : InventoryBatch :=
  if taken.contains b.pk then b.inStock else b

section

variable {taken : List ℕ} {b b' : InventoryBatch}

@[simp] theorem InventoryBatch.assumed_pk : (b.assumed taken).pk = b.pk := by
  unfold InventoryBatch.assumed
  split <;> rfl

@[simp] theorem InventoryBatch.assumed_productId : (b.assumed taken).productId = b.productId := by
  unfold InventoryBatch.assumed
  split <;> rfl

/-- Whether it is in stock does not matter to where a batch is sorted. -/
theorem InventoryBatch.assumed_sorted : (b.assumed taken).bestBefore = b.bestBefore
    ∧ (b.assumed taken).batchId = b.batchId := by
  unfold InventoryBatch.assumed
  split <;> exact ⟨rfl, rfl⟩

/-- In stock, a batch is the same whether packing takes from it or not. -/
@[simp] theorem InventoryBatch.inStock_assumed : (b.assumed taken).inStock = b.inStock := by
  unfold InventoryBatch.assumed
  split <;> rfl

/-- A batch that nobody takes from is found as it is. -/
theorem InventoryBatch.assumed_of_notMem (h : b.pk ∉ taken) : b.assumed taken = b :=
  if_neg (fun hmem => h (List.contains_iff_mem.mp hmem))

/-- A batch that is taken from is found in stock at most. -/
theorem InventoryBatch.assumed_of_mem (h : b.pk ∈ taken) : b.assumed taken = b.inStock :=
  if_pos (List.contains_iff_mem.mpr h)

end

/-- A queryset that a batch does not leave when it is in stock. -/
def BatchQuery.Stocked (query : BatchQuery) : Prop := ∀ b, query b = true → query b.inStock = true

/-- What a query finds, it also finds as assumed. -/
theorem BatchQuery.Stocked.assumed {query : BatchQuery} (h : query.Stocked) {taken : List ℕ}
    {b : InventoryBatch} (hb : query b = true) : query (b.assumed taken) = true := by
  unfold InventoryBatch.assumed
  split
  · exact h b hb
  · exact hb

/-- The rows that a reserving query requests for a batch. -/
def batchRequests (taken : List ℕ) (b : InventoryBatch) : List (Request OrderRow) :=
  [⟨.stock (.batch b.pk), !taken.contains b.pk⟩,
    ⟨.stock (.product b.productId), !taken.contains b.pk⟩]

/-- The rows that a reserving query may request, in that order. -/
def poolRequests (rt : Runtime) (db : Db) (taken : List ℕ) (query : BatchQuery) :
    List (Request OrderRow) :=
  (((db.batches.rows.map (InventoryBatch.assumed taken)).filter query).insertionSort
    (lockOrder rt)).flatMap (batchRequests taken)

section

variable {rt : Runtime} {db db' : Db} {taken : List ℕ}

/-- An orderable batch is so when it is in stock. -/
theorem isOrderable_inStock {today : Date} {b : InventoryBatch} (h : isOrderable today b = true) :
    isOrderable today b.inStock = true :=
  isOrderable_iff.mpr ⟨rfl, Nat.one_pos, (isOrderable_iff.mp h).2.2⟩

/-- The pool of an offer loses no batch that is in stock. -/
theorem stocked_offer (offer : CommercialPrice) (currency : Currency) :
    BatchQuery.Stocked (listOrderableBatchesForOffer rt db offer currency) := by
  intro b hb
  obtain ⟨hen, hactive, horder, hscope⟩ := pool_iff.mp hb
  exact pool_iff.mpr ⟨hen, hactive, isOrderable_inStock horder, hscope⟩

/-- The retail pool is the pool of the offer, or nothing. -/
theorem retailPool_cases (rt : Runtime) (db : Db) (offer : CommercialPrice) (currency : Currency) :
    listBatchesForRetailPrice rt db offer currency = .none
      ∨ listBatchesForRetailPrice rt db offer currency
          = listOrderableBatchesForOffer rt db offer currency := by
  unfold listBatchesForRetailPrice
  split
  · exact Or.inl rfl
  · dsimp only
    split
    · exact Or.inl rfl
    · split
      · exact Or.inl rfl
      · exact Or.inr rfl

/-- Nor does the pool of a retail line. -/
theorem stocked_retail (offer : CommercialPrice) (currency : Currency) :
    BatchQuery.Stocked (listBatchesForRetailPrice rt db offer currency) := by
  rcases retailPool_cases rt db offer currency with h | h
  · rw [h]
    exact fun _ hb => absurd hb (by simp [BatchQuery.none])
  · rw [h]
    exact stocked_offer offer currency

/-- What is requested for a batch does not depend on its stock. -/
@[simp] theorem batchRequests_assumed (b : InventoryBatch) :
    batchRequests taken (b.assumed taken) = batchRequests taken b := by
  unfold batchRequests
  rw [InventoryBatch.assumed_pk, InventoryBatch.assumed_productId]

/-- **What a query locks.** Whatever is in stock by now, its rows are those that it was planned to
    request, but for batches that packing may have taken from. -/
theorem fulfils_pool (hrt : rt.Collates) {own : OrderRow → Prop}
    (hsame : db'.batches.rows.map (InventoryBatch.assumed taken)
      = db.batches.rows.map (InventoryBatch.assumed taken)) {query : BatchQuery}
    (hq : query.Stocked) :
    Fulfils own (poolRequests rt db taken query)
      (((db'.batches.select query).insertionSort (lockOrder rt)).flatMap
        (fun b => [.stock (.batch b.pk), .stock (.product b.productId)])) := by
  have htotal := hrt.lockOrder_total
  have htrans := hrt.lockOrder_trans
  -- the batches of the plan, as they are now
  let planned := db'.batches.select (fun b => query (b.assumed taken))
  have hplan : poolRequests rt db taken query
      = (planned.insertionSort (lockOrder rt)).flatMap (batchRequests taken) := by
    have hmap : ((db.batches.rows.map (InventoryBatch.assumed taken)).filter query)
        = planned.map (InventoryBatch.assumed taken) := by
      rw [← hsame, List.filter_map]
      rfl
    unfold poolRequests
    rw [hmap, ← List.map_insertionSort (lockOrder rt) (lockOrder rt) _ _ (fun b _ c _ => ?_),
      List.flatMap_map]
    · simp only [batchRequests_assumed]
    · simp only [lockOrder_iff, InventoryBatch.assumed_pk, InventoryBatch.assumed_sorted]
  have hsub : (db'.batches.select query).Sublist planned :=
    List.monotone_filter_right _ (fun b hb => hq.assumed hb)
  have hnodup : (planned.insertionSort (lockOrder rt)).Nodup :=
    (List.perm_insertionSort _ _).nodup_iff.mpr
      (List.Nodup.of_map _ (Table.select_nodup_pk db'.batches _))
  rw [hplan]
  refine Fulfils.flatMap_of_sublist (sublist_insertionSort_of_sublist hsub) hnodup
    (fun b _ => .take (.take .nil)) (fun b hb hgone => ?_)
  -- a batch that is planned and not found was taken from
  obtain ⟨hmem, hassumed⟩ := Table.mem_select.mp ((List.perm_insertionSort _ _).mem_iff.mp hb)
  have htaken : b.pk ∈ taken := by
    by_contra hnot
    rw [InventoryBatch.assumed_of_notMem hnot] at hassumed
    exact hgone ((List.perm_insertionSort _ _).mem_iff.mpr (Table.mem_select.mpr ⟨hmem, hassumed⟩))
  simp [batchRequests, htaken]

end

/-! ### Routes -/

/-- The rows that may be requested for an offer of the business channel. -/
def offerRequests (rt : Runtime) (db : Db) (taken : List ℕ) (offerId : ℕ) :
    List (Request OrderRow) :=
  match db.commercialPrices.get? offerId with
  | some offer => poolRequests rt db taken (listOrderableBatchesForOffer rt db offer .eur)
  | none => []

/-- The rows that may be requested for a retail line. -/
def retailRequests (rt : Runtime) (db : Db) (taken : List ℕ) (currency : Currency)
    (line : OrderLine) : List (Request OrderRow) :=
  match line.retailOfferSelection.bind db.commercialPrices.get? with
  | some offer => poolRequests rt db taken (listBatchesForRetailPrice rt db offer currency)
  | none => []

/-- What packing requests for an allocation, given its key and that of its batch. -/
def consumeRequests (x : ℕ × ℕ) : List (Request OrderRow) := [⟨.stock (.batch x.2), false⟩]

/-- The rows of batches and products that a call may request, in the order in which it does. -/
def route (rt : Runtime) (db : Db) (taken : List ℕ) : OrderCall → List (Request OrderRow)
  | .placeOrder orderPk _ =>
      ((db.orderLines orderPk).map OrderLine.commercialOfferId).flatMap (offerRequests rt db taken)
  | .startRetailPayment checkoutPk =>
      match (db.retailCheckouts.get? checkoutPk).bind (fun c => db.orders.get? c.orderId) with
      | some order => (db.orderLines order.pk).flatMap (retailRequests rt db taken order.currency)
      | none => []
  | .updatePlacedOrder orderPk lines _ =>
      (offersAfterEdit db orderPk lines).flatMap (offerRequests rt db taken)
  | .packOrder orderPk _ =>
      (((db.allocations.select (reservedOf orderPk)).insertionSort (consumeOrder rt db)).map
        (fun a => (a.pk, a.batchId))).flatMap consumeRequests

/-- Each row requested is certainly held by then, or comes after all that were requested before. -/
def Climbs (rank : OrderRow → ℕ) (reqs : List (Request OrderRow)) : Prop := ClimbsFrom rank [] reqs

instance (rank : OrderRow → ℕ) (reqs : List (Request OrderRow)) : Decidable (Climbs rank reqs) :=
  decidableClimbsFrom rank [] reqs

/-- The call takes from these batches only. -/
def OrderCall.TakesFrom (db : Db) (taken : List ℕ) : OrderCall → Prop
  | .packOrder orderPk _ => ∀ a ∈ db.allocations.select (reservedOf orderPk), a.batchId ∈ taken
  | .placeOrder _ _ | .startRetailPayment _ | .updatePlacedOrder _ _ _ => True

/-! ### What the others leave alone -/

/-- The reserved allocations of an order, each with its batch. -/
def reservedKeys (db : Db) (orderPk : ℕ) : List (ℕ × ℕ) :=
  (db.allocations.select (reservedOf orderPk)).map (fun a => (a.pk, a.batchId))

/-- What no order service changes, but for the stock of a batch that is taken from. -/
structure SameCatalog (taken : List ℕ) (db db' : Db) : Prop where
  products : db'.products = db.products
  prices : db'.commercialPrices = db.commercialPrices
  checkouts : db'.retailCheckouts = db.retailCheckouts
  batches : db'.batches.rows.map (InventoryBatch.assumed taken)
    = db.batches.rows.map (InventoryBatch.assumed taken)

/-- The order and what hangs on it are as they were, but for reservations that are gone. -/
structure Spares (k : ℕ) (db db' : Db) : Prop where
  order : db'.orders.get? k = db.orders.get? k
  lines : db'.orderLines k = db.orderLines k
  attempts : db'.orderAttempts k = db.orderAttempts k
  reserved : (reservedKeys db' k).Sublist (reservedKeys db k)

/-- What a call for the order `k` relies on the others to leave alone. -/
structure OrderRely (taken : List ℕ) (k : ℕ) (db db' : Db) : Prop where
  catalog : SameCatalog taken db db'
  spares : Spares k db db'

/-- What a call for the order `k` does to the others. -/
structure OrderGuar (taken : List ℕ) (k : ℕ) (db db' : Db) : Prop where
  catalog : SameCatalog taken db db'
  spares : ∀ j, j ≠ k → Spares j db db'

section

variable {taken : List ℕ} {db db₁ db₂ : Db} {k : ℕ}

/-- The catalog is the same. -/
theorem SameCatalog.refl (db : Db) : SameCatalog taken db db := ⟨rfl, rfl, rfl, rfl⟩

/-- What does not depend on the stock of a batch is the same. -/
theorem SameCatalog.inStock (h : SameCatalog taken db db₁) :
    db₁.batches.rows.map InventoryBatch.inStock = db.batches.rows.map InventoryBatch.inStock := by
  have hforget : ∀ bs : List InventoryBatch, bs.map InventoryBatch.inStock
      = (bs.map (InventoryBatch.assumed taken)).map InventoryBatch.inStock := by
    intro bs
    rw [List.map_map]
    exact List.map_congr_left (fun b _ => (InventoryBatch.inStock_assumed (b := b)).symm)
  rw [hforget db₁.batches.rows, h.batches, ← hforget]

/-- So every batch is still there, whatever its stock is. -/
theorem exists_batch_inStock (h : db₁.batches.rows.map InventoryBatch.inStock
      = db.batches.rows.map InventoryBatch.inStock) {b : InventoryBatch} (hb : b ∈ db.batches) :
    ∃ b' ∈ db₁.batches, b'.inStock = b.inStock := by
  have hin : b.inStock ∈ db₁.batches.rows.map InventoryBatch.inStock := by
    rw [h]
    exact List.mem_map_of_mem hb
  exact List.mem_map.mp hin

/-- Two changes that leave the catalog the same. -/
theorem SameCatalog.trans (h : SameCatalog taken db db₁) (h' : SameCatalog taken db₁ db₂) :
    SameCatalog taken db db₂ :=
  ⟨h'.products.trans h.products, h'.prices.trans h.prices, h'.checkouts.trans h.checkouts,
    h'.batches.trans h.batches⟩

/-- Nothing happened to the order. -/
theorem Spares.refl (k : ℕ) (db : Db) : Spares k db db := ⟨rfl, rfl, rfl, List.Sublist.refl _⟩

/-- Two changes that spare the order. -/
theorem Spares.trans (h : Spares k db db₁) (h' : Spares k db₁ db₂) : Spares k db db₂ :=
  ⟨h'.order.trans h.order, h'.lines.trans h.lines, h'.attempts.trans h.attempts,
    h'.reserved.trans h.reserved⟩

/-- Nothing has changed. -/
theorem OrderRely.refl (k : ℕ) (db : Db) : OrderRely taken k db db :=
  ⟨SameCatalog.refl db, Spares.refl k db⟩

/-- Two changes that a call can rely on. -/
theorem OrderRely.trans (h : OrderRely taken k db db₁) (h' : OrderRely taken k db₁ db₂) :
    OrderRely taken k db db₂ :=
  ⟨h.catalog.trans h'.catalog, h.spares.trans h'.spares⟩

/-- A call that writes nothing keeps its guarantee. -/
theorem OrderGuar.refl (k : ℕ) (db : Db) : OrderGuar taken k db db :=
  ⟨SameCatalog.refl db, fun j _ => Spares.refl j db⟩

/-- Two writes that keep the guarantee. -/
theorem OrderGuar.trans (h : OrderGuar taken k db db₁) (h' : OrderGuar taken k db₁ db₂) :
    OrderGuar taken k db db₂ :=
  ⟨h.catalog.trans h'.catalog, fun j hj => (h.spares j hj).trans (h'.spares j hj)⟩

/-- The reserved allocations of an order are a selection of all of its allocations. -/
theorem reservedKeys_congr {db db' : Db} {j : ℕ}
    (h : db'.orderAllocations j = db.orderAllocations j) :
    reservedKeys db' j = reservedKeys db j := by
  have hsplit : ∀ db : Db, db.allocations.select (reservedOf j)
      = (db.orderAllocations j).filter (fun a => a.status = .reserved) := by
    intro db
    unfold Db.orderAllocations Table.select
    rw [List.filter_filter]
    exact List.filter_congr (fun a _ => Bool.and_comm ..)
  unfold reservedKeys
  rw [hsplit, hsplit, h]

/-- A write that leaves the other orders and the catalog as they were. -/
theorem OrderGuar.ofTouches (h : Touches k db db₁) (hcatalog : SameCatalog taken db db₁) :
    OrderGuar taken k db db₁ :=
  ⟨hcatalog, fun j hj => ⟨h.order j hj, h.lines j hj, h.attempts j hj,
    reservedKeys_congr (h.allocations j hj) ▸ List.Sublist.refl _⟩⟩

/-! ### What the statements write -/

/-- New reservations for lines of the order. -/
theorem guar_withReservations {xs : List NewAllocation} (hxs : ∀ x ∈ xs, x.line.orderId = k) :
    OrderGuar taken k db (db.withReservations xs) := by
  refine ⟨⟨rfl, rfl, rfl, rfl⟩, fun j hj => ⟨rfl, rfl, rfl, ?_⟩⟩
  have hother : ∀ a ∈ rowsOf db.allocations.next xs, ¬ reservedOf j a = true := by
    intro a ha haj
    obtain ⟨x, hx, n, rfl⟩ := Table.mem_made_map ha
    exact hj ((reservedOf_iff.mp haj).1.symm.trans (hxs x hx))
  show (((db.allocations.insertAll _).select _).map _).Sublist _
  rw [Table.select_insertAll_of_disjoint hother]
  exact List.Sublist.refl _

/-- Allocations that do not stay RESERVED. -/
theorem guar_saveStatus {as : List Allocation} {status : AllocationStatus}
    (h : status ≠ .reserved) :
    OrderGuar taken k db (saveStatus as status db) := by
  refine ⟨⟨rfl, rfl, rfl, rfl⟩, fun j _ => ⟨rfl, rfl, rfl, ?_⟩⟩
  show (((db.allocations.rows.map (fun a =>
      if (as.map Allocation.pk).contains a.pk then (setStatus status).apply a else a)).filter
        (reservedOf j)).map _).Sublist _
  rw [List.filter_map, List.map_map]
  -- the status is no part of the key
  have hkey : (fun a : Allocation => (a.pk, a.batchId)) ∘ (fun a =>
      if (as.map Allocation.pk).contains a.pk then (setStatus status).apply a else a)
        = fun a => (a.pk, a.batchId) := by
    funext a
    rw [Function.comp_apply]
    split <;> rfl
  rw [hkey]
  refine (List.monotone_filter_right _ (fun a ha => ?_)).map _
  rw [Function.comp_apply] at ha
  split at ha
  · exact absurd (reservedOf_iff.mp ha).2 h
  · exact ha

/-- Deleting the reservations of the order. -/
theorem guar_deleteReservations : OrderGuar taken k db (deleteReservationsForOrder db k) :=
  .ofTouches (Touches.deleteAllocations (fun _ ha => (reservedOf_iff.mp ha).1)) ⟨rfl, rfl, rfl, rfl⟩

/-- Batches that are taken from, and keep all but their stock. -/
theorem guar_saveBatches {rows : List InventoryBatch} (htaken : ∀ row ∈ rows, row.pk ∈ taken)
    (h : ∀ row ∈ rows, ∀ b ∈ db.batches, b.pk = row.pk → b.inStock = row.inStock) :
    OrderGuar taken k db (saveBatches rows db) := by
  refine ⟨⟨rfl, rfl, rfl, Table.map_rows_foldl_put (fun row hrow b hb hpk => ?_)⟩,
    fun _ _ => ⟨rfl, rfl, rfl, List.Sublist.refl _⟩⟩
  have hpk : b.pk = row.pk := hpk
  rw [InventoryBatch.assumed_of_mem (htaken row hrow),
    InventoryBatch.assumed_of_mem (hpk ▸ htaken row hrow)]
  exact h row hrow b hb hpk

/-- A pick writes the quantity and the status of a persisted row. -/
theorem pickedRow_inStock {rt : Runtime} {locked : List InventoryBatch} {pick : ℕ × ℕ}
    {row : InventoryBatch} (h : pickedRow rt locked db pick = .ok row) :
    ∃ b ∈ db.batches, b.pk = pick.1 ∧ row.inStock = b.inStock := by
  unfold pickedRow InventoryBatch.pick InventoryBatch.save at h
  simp only [bind_eq_ok, pure_eq_ok, Db.getBatch_eq_ok, List.mem_cons, true_or, if_true] at h
  obtain ⟨-, -, b, ⟨hb, hpk⟩, -, ⟨-, -, -, -, -, -, self, -, -, -, -, -, rfl⟩, rfl⟩ := h
  exact ⟨b, hb, hpk, rfl⟩

/-- Saving the rows of some picks, when packing may take from all their batches. -/
theorem guar_savePicked {rt : Runtime} {db' : Db} {locked : List InventoryBatch} {picks : List (ℕ × ℕ)}
    {rows : List InventoryBatch} (hrows : picks.mapM (pickedRow rt locked db) = .ok rows)
    (htaken : ∀ pick ∈ picks, pick.1 ∈ taken) (hrely : OrderRely taken k db db') :
    OrderGuar taken k db' (saveBatches rows db') := by
  have hpicked : ∀ row ∈ rows, ∃ pick ∈ picks, ∃ b ∈ db.batches,
      b.pk = pick.1 ∧ row.inStock = b.inStock := by
    intro row hrow
    obtain ⟨pick, hmem, hpick⟩ := exists_of_mem_mapM hrows hrow
    exact ⟨pick, hmem, pickedRow_inStock hpick⟩
  refine guar_saveBatches (fun row hrow => ?_) (fun row hrow b hb hpk => ?_)
  · obtain ⟨pick, hmem, c, -, hc, hsame⟩ := hpicked row hrow
    rw [InventoryBatch.pk_of_inStock hsame, hc]
    exact htaken pick hmem
  · obtain ⟨-, -, c, hc, -, hsame⟩ := hpicked row hrow
    -- a batch with the key of the row is the one that was picked from
    obtain ⟨c', hc', hsame'⟩ := exists_batch_inStock hrely.catalog.inStock.symm hb
    have hcc : c' = c := Table.eq_of_pk_eq (t := db.batches) hc' hc
      ((InventoryBatch.pk_of_inStock hsame').trans
        (hpk.trans (InventoryBatch.pk_of_inStock hsame)))
    rw [← hsame', hcc, hsame]

/-- Saving the order. -/
theorem guar_saveOrder {order : Order} (hpk : order.pk = k) :
    OrderGuar taken k db (db.saveOrder order) := by
  refine ⟨⟨rfl, rfl, rfl, rfl⟩, fun j hj => ⟨?_, rfl, rfl, List.Sublist.refl _⟩⟩
  exact Table.get?_put_of_ne (fun h => hj (h.trans hpk))

/-- A new payment attempt for the order. -/
theorem guar_createPaymentAttempt {r : Db × PaymentAttempt}
    (h : createPaymentAttempt db k = .ok r) :
    OrderGuar taken k db r.1 := by
  unfold createPaymentAttempt at h
  simp only [bind_eq_ok, Db.getOrder_eq_ok] at h
  obtain ⟨order, ⟨-, rfl⟩, amount, -, h⟩ := h
  split at h
  · simp only [bind_eq_ok, pure_eq_ok] at h
    obtain ⟨-, -, -, -, rfl⟩ := h
    refine ⟨⟨rfl, rfl, rfl, rfl⟩, fun j hj => ⟨rfl, rfl, ?_, List.Sublist.refl _⟩⟩
    have hne : ¬ order.pk = j := fun he => hj he.symm
    simp [Db.orderAttempts, Table.select, Table.insert, newAttempt, hne]
  · cases h

/-- Deleting lines of the order, with the allocations on them. -/
theorem guar_deleteLines {pks : List ℕ} (hpks : ∀ l ∈ db.lines, l.pk ∈ pks → l.orderId = k) :
    OrderGuar taken k db (db.deleteLines pks) := by
  refine ⟨⟨rfl, rfl, rfl, rfl⟩, fun j hj => ⟨rfl, ?_, rfl, ?_⟩⟩
  · refine Table.select_delete_of_disjoint _ _ _ (fun l hl hlj => ?_)
    by_contra hmem
    have hk := hpks l hl (by simpa using hmem)
    exact hj ((by simpa using hlj : l.orderId = j).symm.trans hk)
  · show (((db.allocations.delete _).select _).map _).Sublist _
    rw [Table.select_delete]
    exact List.filter_sublist.map _

/-- Replacing the lines of the order. -/
theorem guar_replaceLines {o : Order} {db' : Db} {incoming : List (ℕ × ResolvedOrderLine)}
    {existing : List (ℕ × OrderLine)} (ho : o ∈ db.orders)
    (hex : ∀ e ∈ existing, e.2 ∈ db.orderLines o.pk)
    (h : replaceLines db o incoming existing = .ok db') : OrderGuar taken o.pk db db' := by
  unfold replaceLines at h
  simp only [bind_eq_ok] at h
  obtain ⟨retained, hret, h⟩ := h
  obtain ⟨xs, hxs, rfl⟩ := createOrderLines_eq_ok h
  have hput := Touches.putLines (Inv.resized_of_retained hex hret)
  have hremoved : ∀ e ∈ existing.filter (fun e => (incoming.lookup e.1).isNone),
      e.2 ∈ db.orderLines o.pk := fun e he => hex e (List.mem_filter.mp he).1
  have hsaved := OrderGuar.ofTouches hput (show SameCatalog taken _ _ from ⟨rfl, rfl, rfl, rfl⟩)
  refine (hsaved.trans (guar_deleteLines (Inv.own_of_removed hput hremoved))).trans ?_
  exact .ofTouches (Touches.insertLines hxs ⟨o, ho, rfl⟩) ⟨rfl, rfl, rfl, rfl⟩

end

/-! ### The order of packing -/

/-- What packing sorts an allocation by, given its key and that of its batch. -/
def consumeKey (db : Db) (x : ℕ × ℕ) : Date × String × ℕ :=
  match db.batches.get? x.2 with
  | some b => (b.bestBefore, b.batchId, x.1)
  | none => (0, "", x.1)

section

variable {rt : Runtime} {taken : List ℕ} {db db' : Db} {k : ℕ}

/-- The batch under a key is the same but for its stock. -/
theorem get?_inStock (h : db'.batches.rows.map InventoryBatch.inStock
      = db.batches.rows.map InventoryBatch.inStock) (pk : ℕ) :
    (db'.batches.get? pk).map InventoryBatch.inStock
      = (db.batches.get? pk).map InventoryBatch.inStock := by
  have hfind : ∀ t : Table InventoryBatch, (t.get? pk).map InventoryBatch.inStock
      = (t.rows.map InventoryBatch.inStock).find? (fun b => b.pk == pk) := by
    intro t
    rw [List.find?_map]
    rfl
  rw [hfind, hfind, h]

/-- What packing sorts by does not depend on the stock. -/
theorem consumeKey_congr (h : db'.batches.rows.map InventoryBatch.inStock
      = db.batches.rows.map InventoryBatch.inStock) (x : ℕ × ℕ) :
    consumeKey db' x = consumeKey db x := by
  have hget := get?_inStock h x.2
  unfold consumeKey
  cases hb' : db'.batches.get? x.2 with
  | none =>
    rw [hb', Option.map_none, eq_comm, Option.map_eq_none_iff] at hget
    rw [hget]
  | some b' =>
    rw [hb', Option.map_some, eq_comm, Option.map_eq_some_iff] at hget
    obtain ⟨b, hb, hsame⟩ := hget
    rw [hb]
    show (b'.inStock.bestBefore, b'.inStock.batchId, x.1) = _
    rw [← hsame]
    rfl

/-- Sorted for packing, allocations are sorted by their keys. -/
theorem map_insertionSort_consumeOrder {as : List Allocation}
    (h : ∀ a ∈ as, ∃ b ∈ db.batches, b.pk = a.batchId) :
    (as.insertionSort (consumeOrder rt db)).map (fun a => (a.pk, a.batchId))
      = (as.map (fun a => (a.pk, a.batchId))).insertionSort
          (fun x y => sortKeyLe rt (consumeKey db x) (consumeKey db y)) := by
  refine List.map_insertionSort _ _ _ _ (fun a ha a' ha' => ?_)
  obtain ⟨b, hb, hpk⟩ := h a ha
  obtain ⟨b', hb', hpk'⟩ := h a' ha'
  have hget : db.batches.get? a.batchId = some b := Table.get?_eq_some.mpr ⟨hb, hpk⟩
  have hget' : db.batches.get? a'.batchId = some b' := Table.get?_eq_some.mpr ⟨hb', hpk'⟩
  unfold consumeOrder consumeKey
  simp only [hget, hget']
  rfl

/-- **What packing locks.** Whatever is reserved by now, beside the allocations it requests
    batches that it was planned to request. -/
theorem fulfils_consumed (hrt : rt.Collates) {own : OrderRow → Prop} (user : Option ℕ)
    (h : OrderRely taken k db db')
    (hbatch : ∀ a ∈ db.allocations, ∃ b ∈ db.batches, b.pk = a.batchId)
    (hown : ∀ a ∈ db'.allocations.select (reservedOf k), own (.stock (.allocation a.pk))) :
    Fulfils own (route rt db taken (.packOrder k user))
      (((db'.allocations.select (reservedOf k)).insertionSort (consumeOrder rt db')).flatMap
        (fun a => [.stock (.allocation a.pk), .stock (.batch a.batchId)])) := by
  have htotal : Std.Total (fun x y => sortKeyLe rt (consumeKey db x) (consumeKey db y)) :=
    ⟨fun x y => hrt.sortKeyLe_total _ _⟩
  have htrans : IsTrans (ℕ × ℕ) (fun x y => sortKeyLe rt (consumeKey db x) (consumeKey db y)) :=
    ⟨fun x y z => hrt.sortKeyLe_trans⟩
  have hold : ∀ a ∈ db.allocations.select (reservedOf k), ∃ b ∈ db.batches, b.pk = a.batchId :=
    fun a ha => hbatch a (Table.mem_select.mp ha).1
  -- what is still reserved is on batches that are still there
  have hnew : ∀ a ∈ db'.allocations.select (reservedOf k), ∃ b ∈ db'.batches, b.pk = a.batchId := by
    intro a ha
    have hmem : (a.pk, a.batchId) ∈ reservedKeys db k :=
      h.spares.reserved.subset (List.mem_map.mpr ⟨a, ha, rfl⟩)
    obtain ⟨a₀, ha₀, heq⟩ := List.mem_map.mp hmem
    obtain ⟨b, hb, hpk⟩ := hold a₀ ha₀
    obtain ⟨b', hb', hsame⟩ := exists_batch_inStock h.catalog.inStock hb
    refine ⟨b', hb', ?_⟩
    rw [InventoryBatch.pk_of_inStock hsame, hpk]
    exact (Prod.mk.inj heq).2
  have hsorted := sublist_insertionSort_of_sublist
    (r := fun x y => sortKeyLe rt (consumeKey db x) (consumeKey db y)) h.spares.reserved
  unfold reservedKeys at hsorted
  rw [← map_insertionSort_consumeOrder hold] at hsorted
  have hkeys : (fun x y => sortKeyLe rt (consumeKey db x) (consumeKey db y))
      = fun x y => sortKeyLe rt (consumeKey db' x) (consumeKey db' y) := by
    funext x y
    rw [consumeKey_congr h.catalog.inStock, consumeKey_congr h.catalog.inStock]
  simp only [hkeys] at hsorted
  rw [← map_insertionSort_consumeOrder hnew] at hsorted
  have hnodup : (((db.allocations.select (reservedOf k)).insertionSort (consumeOrder rt db)).map
      (fun a => (a.pk, a.batchId))).Nodup := by
    refine List.Nodup.of_map Prod.fst ?_
    rw [List.map_map]
    exact (((List.perm_insertionSort _ _).map _).nodup_iff).mpr
      (Table.select_nodup_pk db.allocations _)
  have hfulfils : Fulfils own
      ((((db.allocations.select (reservedOf k)).insertionSort (consumeOrder rt db)).map
        (fun a => (a.pk, a.batchId))).flatMap consumeRequests)
      ((((db'.allocations.select (reservedOf k)).insertionSort (consumeOrder rt db')).map
        (fun a => (a.pk, a.batchId))).flatMap
          (fun x => [.stock (.allocation x.1), .stock (.batch x.2)])) := by
    refine Fulfils.flatMap_of_sublist hsorted hnodup (fun x hx => ?_) (fun y _ _ q hq => ?_)
    · obtain ⟨a, ha, rfl⟩ := List.mem_map.mp hx
      exact .own (hown a ((List.perm_insertionSort _ _).mem_iff.mp ha)) (.take .nil)
    · rw [List.mem_singleton.mp hq]
  simpa only [route, List.flatMap_map] using hfulfils

end

end SwedeSweets
