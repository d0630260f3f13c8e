import SwedeSweets.Business.Services
import SwedeSweets.Concurrency.StockTransactions
import SwedeSweets.Fulfillment.Services
import SwedeSweets.Orders.Effects
import SwedeSweets.Retail.Services

namespace SwedeSweets

open Relational Fallible ReadCommitted

/-!
# The order services as transactions

Placing, paying, editing and packing an order lock the order's row and then, one query after
the other, the rows of allocations and batches.  Here each of them is a transaction
(`OrderCall.tx`), statement by statement; the stock services run nested in it.

`ends_orderTx` — on its own, the transaction does what the service computes.
-/

/-! ### Statements -/

/-- A row that a statement locks. -/
inductive OrderRow where
  | order (pk : ℕ)
  | checkout (pk : ℕ)
  | attempt (pk : ℕ)
  | stock (r : RowId)
  deriving DecidableEq

abbrev OrderTx := Tx OrderRow Db Error Unit

/-- A service that mutates an order runs against a freshly locked row. -/
def lockedOrderTx (orderPk : ℕ) (guard : Order → Result Unit) (function : Order → OrderTx) :
    OrderTx :=
  .lock (.order orderPk) fun db =>
  .attempt (db.getOrder orderPk) fun order =>
  .attempt (guard order) fun _ => function order

/-- What a write leaves behind. -/
def written (f : Db → Result Db) (db : Db) : Db :=
  match f db with
  | .ok db' => db'
  | .error _ => db

/-- What is written when the service returns. -/
theorem written_of_ok {f : Db → Result Db} {db db' : Db} (h : f db = .ok db') :
    written f db = db' := by
  unfold written
  rw [h]

/-- Nothing is written when the service raises. -/
theorem written_of_error {f : Db → Result Db} {db : Db} {e : Error} (h : f db = .error e) :
    written f db = db := by
  unfold written
  rw [h]

/-- Statements that read what they need and write. -/
def mutate (f : Db → Result Db) (k : OrderTx) : OrderTx :=
  .read fun db =>
  .attempt (f db) fun _ =>
  .write (written f) k

/-- Save the locked order as a method of the model leaves it; the method reads the clock. -/
def saveOrderTx (method : Time → Result Order) : OrderTx :=
  .clock fun now =>
  .attempt (method now) fun order =>
  .write (fun db => db.saveOrder order) <|
  .commit []

/-! ### Reserving lines -/

/-- Reserve one business line from the pool of its offer. -/
def reserveBusinessLineTx (rt : Runtime) (line : OrderLine) (k : OrderTx) : OrderTx :=
  .read fun db =>
  .attempt (db.getProduct line.productId) fun product =>
  .attempt (db.getCommercialPrice line.commercialOfferId) fun offer =>
  .attempt (validateBusinessOffer line product offer) fun _ =>
  (reserveTx rt line (listOrderableBatchesForOffer rt db offer .eur) line.quantityInUnits none).within
    .stock (stockError product) k

/-- `prepare_business_order_for_placement`: the lines in the order of their ids. -/
def prepareBusinessTx (rt : Runtime) (order : Order) (k : OrderTx) : OrderTx :=
  .attempt (require (order.channel = .business)
    (.invalidOrderOperation "Business placement policy requires a business order")) fun _ =>
  .read fun db =>
  .attempt (require (db.orderLines order.pk ≠ [])
    (.invalidOrderOperation "order must contain at least one line")) fun _ =>
  (db.orderLines order.pk).foldr (reserveBusinessLineTx rt) k

/-- Reserve one retail line until the payment window ends. -/
def reserveRetailLineTx (rt : Runtime) (currency : Currency) (reservedUntil : Time)
    (line : OrderLine) (k : OrderTx) : OrderTx :=
  .read fun db =>
  .attempt (orRaise line.retailOfferSelection (.invalidRetailOrder
    ("order line " ++ toString line.pk ++ " has no retail offer selection"))) fun selection =>
  .attempt (db.getCommercialPrice selection) fun commercialPrice =>
  .attempt (db.getProduct line.productId) fun product =>
  (reserveTx rt line (listBatchesForRetailPrice rt db commercialPrice currency)
    line.quantityInUnits (some reservedUntil)).within .stock (stockError product) k

/-! ### Releasing -/

/-- `delete_reservations_for_order`. -/
def deleteReservationsTx (orderPk : ℕ) : StockTx :=
  selectForUpdate (reservedOf orderPk) (fun _ => id) (fun a => [.allocation a.pk]) fun _ =>
  .write (fun db => deleteReservationsForOrder db orderPk) <|
  .commit []

/-- `cancel_temporary_reservations_for_order`. -/
def cancelTemporaryTx (orderPk : ℕ) : StockTx :=
  selectForUpdate (fun a => reservedOf orderPk a && a.reservedUntil.isSome) (fun _ => id)
    (fun a => [.allocation a.pk]) fun allocations =>
  .attempt (allocations.mapM Allocation.cancel) fun _ =>
  .write (saveStatus allocations .cancelled) <|
  .commit []

/-! ### Transactions -/

/-- `place_order` of the business channel. -/
def placeOrderTx (rt : Runtime) (orderPk : ℕ) (user : Option ℕ) : OrderTx :=
  lockedOrderTx orderPk requireDraftForPlacement fun order =>
  prepareBusinessTx rt order <|
  saveOrderTx fun now => order.markAsPlaced { rt with now := now } user

/-- `update_placed_order` of the business channel, with the lines already resolved. -/
def updatePlacedOrderTx (rt : Runtime) (orderPk : ℕ) (lines : List ResolvedOrderLine)
    (user : Option ℕ) : OrderTx :=
  lockedOrderTx orderPk requirePlacedForEdit fun order =>
  .attempt (require (lines ≠ [])
    (.invalidOrderOperation "order must contain at least one line")) fun _ =>
  .attempt (incomingByOfferId order lines) fun incoming =>
  .read fun db =>
  .attempt (existingByOfferId (db.orderLines order.pk)) fun existing =>
  (deleteReservationsTx order.pk).within .stock id <|
  mutate (fun db => replaceLines db order incoming existing) <|
  prepareBusinessTx rt order <|
  saveOrderTx fun now => .ok (order.markAsEdited { rt with now := now } user)

/-- What packing raises when nothing is reserved. -/
def packError (order : Order) : Error → Error
  | .missingReservations _ =>
      .invalidOrderOperation ("Order " ++ toString order.pk ++ " has no reserved allocations")
  | e => e

/-- `pack_order`. -/
def packOrderTx (rt : Runtime) (orderPk : ℕ) (user : Option ℕ) : OrderTx :=
  lockedOrderTx orderPk requirePlacedForPacking fun order =>
  (consumeTx rt order.pk).within .stock (packError order) <|
  saveOrderTx fun now => order.markAsPacked { rt with now := now } user

/-- The pending attempt of the order that a lock returns, when it is still pending. -/
def lockedPending (orderPk : ℕ) : OrderRow → Db → List PaymentAttempt
  | .attempt pk, db => (db.paymentAttempts.get? pk).toList.filter (pendingOf orderPk)
  | _, _ => []

/-- `select_for_update().filter(...).first()` on the pending attempts of an order. -/
def firstPendingTx (orderPk : ℕ) (k : List PaymentAttempt → OrderTx) : OrderTx :=
  .read fun db =>
  .lockRows (lockedPending orderPk)
    (((db.paymentAttempts.select (pendingOf orderPk)).take 1).map (fun p => .attempt p.pk)) [] k

/-- `create_payment_attempt`, which locks the order's row again. -/
def createPaymentAttemptTx (orderPk : ℕ) (k : OrderTx) : OrderTx :=
  .lock (.order orderPk) fun _ =>
  mutate (fun db => (createPaymentAttempt db orderPk).map Prod.fst) k

/-- `start_retail_payment`, which reads the clock before it locks. -/
def startRetailPaymentTx (rt : Runtime) (checkoutPk : ℕ) : OrderTx :=
  .clock fun now =>
  .lock (.checkout checkoutPk) fun db =>
  .attempt (orRaise (db.retailCheckouts.get? checkoutPk) (.doesNotExist "RetailCheckoutSession"))
    fun checkout =>
  .lock (.order checkout.orderId) fun db =>
  .attempt (db.getOrder checkout.orderId) fun order =>
  .attempt (require (now < checkout.expiresAt)
    (.invalidRetailOrder "retail checkout has expired")) fun _ =>
  .attempt (require (order.channel = .retail)
    (.invalidRetailOrder "checkout does not belong to a retail order")) fun _ =>
  .attempt (require (order.status = .draft)
    (.invalidRetailOrder "only draft retail orders can start payment")) fun _ =>
  firstPendingTx order.pk fun pending =>
  .attempt (require (pending = [])
    (.invalidRetailOrder "retail order already has a pending payment attempt")) fun _ =>
  .read fun db =>
  .attempt (require (db.orderLines order.pk ≠ [])
    (.invalidRetailOrder "retail checkout has no order lines")) fun _ =>
  (cancelTemporaryTx order.pk).within .stock id <|
  (db.orderLines order.pk).foldr
    (reserveRetailLineTx rt order.currency (now + retailPaymentReservationWindow)) <|
  createPaymentAttemptTx order.pk <|
  .commit []

/-- A call of one of the four services. -/
inductive OrderCall where
  | placeOrder (orderPk : ℕ) (user : Option ℕ)
  | startRetailPayment (checkoutPk : ℕ)
  | updatePlacedOrder (orderPk : ℕ) (lines : List ResolvedOrderLine) (user : Option ℕ)
  | packOrder (orderPk : ℕ) (user : Option ℕ)

namespace OrderCall

/-- The transaction of a call. -/
def tx (rt : Runtime) : OrderCall → OrderTx
  | placeOrder orderPk user => placeOrderTx rt orderPk user
  | startRetailPayment checkoutPk => startRetailPaymentTx rt checkoutPk
  | updatePlacedOrder orderPk lines user => updatePlacedOrderTx rt orderPk lines user
  | packOrder orderPk user => packOrderTx rt orderPk user

/-- The service, as one atomic step. -/
def service (rt : Runtime) (db : Db) : OrderCall → Result Db
  | placeOrder orderPk user => Business.placeOrder rt db orderPk user
  | startRetailPayment checkoutPk => (SwedeSweets.startRetailPayment rt db checkoutPk).map Prod.fst
  | updatePlacedOrder orderPk lines user =>
      SwedeSweets.updatePlacedOrder rt db orderPk lines clearOrderReservationsBeforeLineReplacement
        (prepareBusinessOrderForPlacement rt) user
  | packOrder orderPk user => Fulfillment.packOrder rt db orderPk user

end OrderCall

/-! ### One transaction on its own -/

section

variable {rt : Runtime} {db db' : Db} {k : OrderTx}

/-- The locked order is read and checked, and the transaction goes on. -/
theorem ends_lockedOrder {orderPk : ℕ} {guard : Order → Result Unit} {function : Order → OrderTx} :
    (lockedOrderTx orderPk guard function).Ends rt.now db db' ↔
      ∃ o, db.getOrder orderPk = .ok o ∧ ∃ u, guard o = .ok u ∧ (function o).Ends rt.now db db' := by
  show (Tx.attempt _ _).Ends rt.now db db' ↔ _
  simp only [Tx.ends_attempt]

/-- The write is what the service computes. -/
theorem ends_mutate {f : Db → Result Db} :
    (mutate f k).Ends rt.now db db' ↔ ∃ db₁, f db = .ok db₁ ∧ k.Ends rt.now db₁ db' := by
  show (Tx.attempt _ _).Ends rt.now db db' ↔ _
  rw [Tx.ends_attempt]
  refine exists_congr (fun db₁ => and_congr_right (fun hf => ?_))
  unfold Tx.Ends
  simp only [Tx.exec, written_of_ok hf]

/-- The order is saved as its method leaves it. -/
theorem ends_saveOrder {method : Time → Result Order} :
    (saveOrderTx method).Ends rt.now db db' ↔ ∃ o, method rt.now = .ok o ∧ db.saveOrder o = db' := by
  show (Tx.attempt _ _).Ends rt.now db db' ↔ _
  rw [Tx.ends_attempt]
  refine exists_congr (fun o => and_congr_right (fun _ => ?_))
  unfold Tx.Ends
  simp [Tx.exec]

/-- Reserving a business line does what the service does. -/
theorem ends_reserveBusinessLine {line : OrderLine} :
    (reserveBusinessLineTx rt line k).Ends rt.now db db' ↔
      ∃ db₁, reserveBusinessLine rt db line = .ok db₁ ∧ k.Ends rt.now db₁ db' := by
  show (Tx.attempt _ _).Ends rt.now db db' ↔ _
  simp only [Tx.ends_attempt, Tx.ends_within]
  unfold reserveBusinessLine
  simp only [bind_eq_ok, mapError_eq_ok]
  constructor
  · rintro ⟨product, hproduct, offer, hoffer, u, hvalid, db₁, hreserve, hk⟩
    exact ⟨db₁, ⟨product, hproduct, offer, hoffer, u, hvalid, exec_reserveTx.mp hreserve⟩, hk⟩
  · rintro ⟨db₁, ⟨product, hproduct, offer, hoffer, u, hvalid, hreserve⟩, hk⟩
    exact ⟨product, hproduct, offer, hoffer, u, hvalid, db₁, exec_reserveTx.mpr hreserve, hk⟩

/-- Reserving a retail line does what the service does. -/
theorem ends_reserveRetailLine {currency : Currency} {reservedUntil : Time} {line : OrderLine} :
    (reserveRetailLineTx rt currency reservedUntil line k).Ends rt.now db db' ↔
      ∃ db₁, reserveRetailLine rt currency reservedUntil db line = .ok db₁
        ∧ k.Ends rt.now db₁ db' := by
  show (Tx.attempt _ _).Ends rt.now db db' ↔ _
  simp only [Tx.ends_attempt, Tx.ends_within]
  unfold reserveRetailLine
  simp only [bind_eq_ok, mapError_eq_ok]
  constructor
  · rintro ⟨selection, hselection, offer, hoffer, product, hproduct, db₁, hreserve, hk⟩
    exact ⟨db₁, ⟨selection, hselection, offer, hoffer, product, hproduct,
      exec_reserveTx.mp hreserve⟩, hk⟩
  · rintro ⟨db₁, ⟨selection, hselection, offer, hoffer, product, hproduct, hreserve⟩, hk⟩
    exact ⟨selection, hselection, offer, hoffer, product, hproduct, db₁,
      exec_reserveTx.mpr hreserve, hk⟩

/-- A loop of nested transactions is a loop over what they do. -/
theorem ends_foldr {body : OrderLine → OrderTx → OrderTx} {step : Db → OrderLine → Result Db}
    (hbody : ∀ (line : OrderLine) (k : OrderTx) (db : Db), (body line k).Ends rt.now db db' ↔
      ∃ db₁, step db line = .ok db₁ ∧ k.Ends rt.now db₁ db') {lines : List OrderLine} {db : Db} :
    (lines.foldr body k).Ends rt.now db db' ↔
      ∃ db₁, lines.foldlM step db = .ok db₁ ∧ k.Ends rt.now db₁ db' := by
  induction lines generalizing db with
  | nil => simp
  | cons line lines ih =>
    rw [List.foldr_cons, hbody]
    simp only [List.foldlM_cons, bind_eq_ok, ih]
    constructor
    · rintro ⟨db₁, hline, db₂, hlines, hk⟩
      exact ⟨db₂, ⟨db₁, hline, hlines⟩, hk⟩
    · rintro ⟨db₂, ⟨db₁, hline, hlines⟩, hk⟩
      exact ⟨db₁, hline, db₂, hlines, hk⟩

/-- Preparing a business order reserves its lines one after the other. -/
theorem ends_prepareBusiness {order : Order} :
    (prepareBusinessTx rt order k).Ends rt.now db db' ↔
      ∃ db₁, prepareBusinessOrderForPlacement rt db order = .ok db₁ ∧ k.Ends rt.now db₁ db' := by
  have hread : ∀ {g : Db → OrderTx}, (Tx.read g : OrderTx).Ends rt.now db db' ↔
      (g db).Ends rt.now db db' := Iff.rfl
  -- one line at a time, the transaction and the service agree
  have hbody : ∀ (line : OrderLine) (k : OrderTx) (db : Db),
      (reserveBusinessLineTx rt line k).Ends rt.now db db' ↔
        ∃ db₁, reserveBusinessLine rt db line = .ok db₁ ∧ k.Ends rt.now db₁ db' :=
    fun _ _ _ => ends_reserveBusinessLine
  have hlines : ((db.orderLines order.pk).foldr (reserveBusinessLineTx rt) k).Ends rt.now db db' ↔
      ∃ db₁, (db.orderLines order.pk).foldlM (reserveBusinessLine rt) db = .ok db₁
        ∧ k.Ends rt.now db₁ db' := ends_foldr hbody
  unfold prepareBusinessTx prepareBusinessOrderForPlacement
  simp only [Tx.ends_attempt, hread, hlines, bind_eq_ok]
  constructor
  · rintro ⟨u, hch, v, hne, db₁, hloop, hk⟩
    exact ⟨db₁, ⟨u, hch, v, hne, hloop⟩, hk⟩
  · rintro ⟨db₁, ⟨u, hch, v, hne, hloop⟩, hk⟩
    exact ⟨u, hch, v, hne, db₁, hloop, hk⟩

/-- The reservations of the order are deleted. -/
theorem ends_deleteReservations {orderPk : ℕ} :
    (deleteReservationsTx orderPk).Ends rt.now db db' ↔ deleteReservationsForOrder db orderPk = db' := by
  unfold deleteReservationsTx Tx.Ends
  rw [exec_selectForUpdate (fun as => List.Perm.refl (id as)) (fun _ => rfl)]
  simp [Tx.exec]

/-- The temporary reservations of the order are cancelled. -/
theorem ends_cancelTemporary {orderPk : ℕ} :
    (cancelTemporaryTx orderPk).Ends rt.now db db' ↔
      cancelTemporaryReservationsForOrder db orderPk = .ok db' := by
  have hquery : (fun a => reservedOf orderPk a && a.reservedUntil.isSome) = temporaryOf orderPk := rfl
  -- what is selected is reserved, so it can be cancelled
  have hcancel : (db.allocations.select (temporaryOf orderPk)).mapM Allocation.cancel
      = .ok ((db.allocations.select (temporaryOf orderPk)).map (setStatus .cancelled).apply) :=
    mapM_eq_map (fun a ha => Allocation.cancel_of_reserved
      (reservedOf_iff.mp (temporaryOf_iff.mp (Table.mem_select.mp ha).2).1).2)
  unfold cancelTemporaryTx Tx.Ends
  rw [exec_selectForUpdate (fun as => List.Perm.refl (id as)) (fun _ => rfl),
    cancelTemporaryReservationsForOrder_eq]
  simp only [hquery, id, table_allocations, Tx.exec_attempt, hcancel, Tx.exec, bind_eq_ok,
    Except.ok.injEq, exists_eq_left', Prod.mk.injEq, exists_and_left, exists_eq', and_true,
    saveStatus_eq (List.Perm.refl _)]
  rfl

/-- The first pending attempt is locked, if there is one. -/
theorem ends_firstPending {orderPk : ℕ} {k : List PaymentAttempt → OrderTx} :
    (firstPendingTx orderPk k).Ends rt.now db db' ↔
      (k ((db.paymentAttempts.select (pendingOf orderPk)).take 1)).Ends rt.now db db' := by
  -- a row that is locked on one's own is the row selected
  have hlocked : ∀ ps : List PaymentAttempt, (∀ p ∈ ps, p ∈ db.paymentAttempts.select (pendingOf orderPk)) →
      (ps.map (fun p => OrderRow.attempt p.pk)).flatMap (fun r => lockedPending orderPk r db) = ps := by
    intro ps hps
    induction ps with
    | nil => rfl
    | cons p ps ih =>
      obtain ⟨hp, hpending⟩ := Table.mem_select.mp (hps p (List.mem_cons_self ..))
      have hone : lockedPending orderPk (.attempt p.pk) db = [p] := by
        show ((db.paymentAttempts.get? (Row.pk p)).toList.filter (pendingOf orderPk)) = [p]
        rw [Table.get?_self hp]
        simp [hpending]
      rw [List.map_cons, List.flatMap_cons, hone,
        ih (fun x hx => hps x (List.mem_cons_of_mem _ hx))]
      rfl
  unfold Tx.Ends
  show (∃ note, (Tx.lockRows _ _ _ _).exec rt.now db = _) ↔ _
  rw [Tx.exec_lockRows, List.nil_append, hlocked _ (fun p hp => List.mem_of_mem_take hp)]

/-- A payment attempt is created. -/
theorem ends_createPaymentAttempt {orderPk : ℕ} :
    (createPaymentAttemptTx orderPk k).Ends rt.now db db' ↔
      ∃ r, createPaymentAttempt db orderPk = .ok r ∧ k.Ends rt.now r.1 db' := by
  have hmutate : (createPaymentAttemptTx orderPk k).Ends rt.now db db' ↔ (mutate (fun db =>
      (createPaymentAttempt db orderPk).map Prod.fst) k).Ends rt.now db db' := Iff.rfl
  rw [hmutate, ends_mutate]
  simp only [map_eq_ok]
  constructor
  · rintro ⟨-, ⟨r, hr, rfl⟩, hk⟩
    exact ⟨r, hr, hk⟩
  · rintro ⟨r, hr, hk⟩
    exact ⟨r.1, ⟨r, hr, rfl⟩, hk⟩

/-- On its own, the transaction places the order. -/
theorem ends_placeOrder {orderPk : ℕ} {user : Option ℕ} :
    (placeOrderTx rt orderPk user).Ends rt.now db db' ↔
      Business.placeOrder rt db orderPk user = .ok db' := by
  unfold placeOrderTx Business.placeOrder SwedeSweets.placeOrder lockedOrder
  simp only [ends_lockedOrder, ends_prepareBusiness, ends_saveOrder, bind_eq_ok, pure_eq_ok]

/-- On its own, the transaction edits the order. -/
theorem ends_updatePlacedOrder {orderPk : ℕ} {lines : List ResolvedOrderLine} {user : Option ℕ} :
    (updatePlacedOrderTx rt orderPk lines user).Ends rt.now db db' ↔
      SwedeSweets.updatePlacedOrder rt db orderPk lines clearOrderReservationsBeforeLineReplacement
        (prepareBusinessOrderForPlacement rt) user = .ok db' := by
  have hread : ∀ {g : Db → OrderTx}, (Tx.read g : OrderTx).Ends rt.now db db' ↔
      (g db).Ends rt.now db db' := Iff.rfl
  unfold updatePlacedOrderTx SwedeSweets.updatePlacedOrder lockedOrder
    clearOrderReservationsBeforeLineReplacement
  simp only [ends_lockedOrder, Tx.ends_attempt, hread, Tx.ends_within, ends_deleteReservations,
    ends_mutate, ends_prepareBusiness, ends_saveOrder, bind_eq_ok, pure_eq_ok, Except.ok.injEq,
    exists_eq_left']

/-- On its own, the transaction packs the order. -/
theorem ends_packOrder {orderPk : ℕ} {user : Option ℕ} :
    (packOrderTx rt orderPk user).Ends rt.now db db' ↔
      Fulfillment.packOrder rt db orderPk user = .ok db' := by
  unfold packOrderTx Fulfillment.packOrder SwedeSweets.packOrder lockedOrder
    consumeOrderReservationsBeforePacking
  have hconsume : ∀ {o : ℕ} {db₁ : Db}, (consumeTx rt o).Ends rt.now db db₁ ↔
      consumeReservationsForOrder rt db o = .ok db₁ := exec_consumeTx
  simp only [ends_lockedOrder, Tx.ends_within, hconsume, ends_saveOrder, bind_eq_ok, pure_eq_ok,
    mapError_eq_ok]

/-- On its own, the transaction starts the payment. -/
theorem ends_startRetailPayment {checkoutPk : ℕ} :
    (startRetailPaymentTx rt checkoutPk).Ends rt.now db db' ↔
      (SwedeSweets.startRetailPayment rt db checkoutPk).map Prod.fst = .ok db' := by
  have hread : ∀ {g : Db → OrderTx}, (Tx.read g : OrderTx).Ends rt.now db db' ↔
      (g db).Ends rt.now db db' := Iff.rfl
  have hclock : ∀ {g : Time → OrderTx}, (Tx.clock g : OrderTx).Ends rt.now db db' ↔
      (g rt.now).Ends rt.now db db' := Iff.rfl
  have hlock : ∀ {r : OrderRow} {g : Db → OrderTx}, (Tx.lock r g : OrderTx).Ends rt.now db db' ↔
      (g db).Ends rt.now db db' := Iff.rfl
  -- the loop over the lines is the loop of the service
  have hlines : ∀ {currency : Currency} {reservedUntil : Time} {lines : List OrderLine} {k : OrderTx}
      {db : Db}, (lines.foldr (reserveRetailLineTx rt currency reservedUntil) k).Ends rt.now db db' ↔
        ∃ db₁, lines.foldlM (reserveRetailLine rt currency reservedUntil) db = .ok db₁
          ∧ k.Ends rt.now db₁ db' := by
    intro currency reservedUntil lines k db
    have hbody : ∀ (line : OrderLine) (k : OrderTx) (db : Db),
        (reserveRetailLineTx rt currency reservedUntil line k).Ends rt.now db db' ↔
          ∃ db₁, reserveRetailLine rt currency reservedUntil db line = .ok db₁
            ∧ k.Ends rt.now db₁ db' := fun _ _ _ => ends_reserveRetailLine
    exact ends_foldr hbody
  have hcommit : ∀ {db : Db}, (Tx.commit [] : OrderTx).Ends rt.now db db' ↔ db = db' := by
    intro db
    unfold Tx.Ends
    simp [Tx.exec]
  have hpending : ∀ o : ℕ, (db.paymentAttempts.select (pendingOf o)).take 1 = []
      ↔ db.paymentAttempts.select (pendingOf o) = [] := by
    intro o
    rw [List.take_eq_nil_iff]
    simp
  unfold startRetailPaymentTx SwedeSweets.startRetailPayment
  simp only [hclock, hlock, Tx.ends_attempt, hread, ends_firstPending, Tx.ends_within,
    ends_cancelTemporary, hlines, ends_createPaymentAttempt, hcommit, hpending, map_eq_ok, bind_eq_ok,
    require_eq_ok, exists_const]
  constructor
  · rintro ⟨checkout, hcheckout, o, ho, hexp, hch, hst, hnone, hne, db₁, hcancel, db₂, hloop, r, hr, rfl⟩
    exact ⟨r, ⟨checkout, hcheckout, o, ho, hexp, hch, hst, hnone, hne, db₁, hcancel, db₂, hloop, hr⟩,
      rfl⟩
  · rintro ⟨r, ⟨checkout, hcheckout, o, ho, hexp, hch, hst, hnone, hne, db₁, hcancel, db₂, hloop, hr⟩,
      rfl⟩
    exact ⟨checkout, hcheckout, o, ho, hexp, hch, hst, hnone, hne, db₁, hcancel, db₂, hloop, r, hr, rfl⟩

/-- **On its own** the transaction of a call does what the service computes. -/
theorem ends_orderTx (call : OrderCall) :
    (call.tx rt).Ends rt.now db db' ↔ call.service rt db = .ok db' := by
  cases call with
  | placeOrder => exact ends_placeOrder
  | startRetailPayment => exact ends_startRetailPayment
  | updatePlacedOrder => exact ends_updatePlacedOrder
  | packOrder => exact ends_packOrder

end

end SwedeSweets
