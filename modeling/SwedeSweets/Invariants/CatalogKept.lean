import SwedeSweets.Invariants.Reachable

namespace SwedeSweets

open Relational Fallible Transition

/-!
# Orders, payments and stock leave the catalog alone

`CatalogKept db db'` says that products, offers and postal areas stay as they are, and that no
batch is lost or moved to another product.  Every service of the shop keeps the catalog in this
sense, whatever state it runs in; `Op.catalogKept` collects them.
-/

/-- One batch, at two times. -/
def InventoryBatch.SameProduct (b b' : InventoryBatch) : Prop := b'.productId = b.productId

theorem InventoryBatch.SameProduct.refl (b : InventoryBatch) : b.SameProduct b := rfl

/-- A batch stays of its product through two steps. -/
theorem InventoryBatch.SameProduct.trans (b b₁ b₂ : InventoryBatch) (h : b.SameProduct b₁)
    (h' : b₁.SameProduct b₂) : b.SameProduct b₂ := Eq.trans h' h

structure CatalogKept (db db' : Db) : Prop where
  products : db'.products = db.products
  prices : db'.commercialPrices = db.commercialPrices
  areas : db'.postalAreas = db.postalAreas
  batches : Table.Evolves InventoryBatch.SameProduct db.batches db'.batches

namespace CatalogKept

variable {rt : Runtime} {db db₁ db' : Db}

/-- A write to other tables. -/
theorem frame (hproducts : db'.products = db.products)
    (hprices : db'.commercialPrices = db.commercialPrices)
    (hareas : db'.postalAreas = db.postalAreas) (hbatches : db'.batches = db.batches) :
    CatalogKept db db' where
  products := hproducts
  prices := hprices
  areas := hareas
  batches := by
    rw [hbatches]
    exact Table.Evolves.refl InventoryBatch.SameProduct.refl _

/-- Doing nothing keeps the catalog. -/
theorem refl (db : Db) : CatalogKept db db := frame rfl rfl rfl rfl

/-- Two steps that keep the catalog keep it together. -/
theorem trans (h : CatalogKept db db₁) (h' : CatalogKept db₁ db') : CatalogKept db db' where
  products := h'.products.trans h.products
  prices := h'.prices.trans h.prices
  areas := h'.areas.trans h.areas
  batches := h.batches.trans InventoryBatch.SameProduct.trans h'.batches

/-- A loop keeps the catalog if each of its turns does. -/
theorem foldlM {α : Type} {f : Db → α → Result Db} {xs : List α}
    (hf : ∀ x s s', f s x = .ok s' → CatalogKept s s') (h : xs.foldlM f db = .ok db') :
    CatalogKept db db' :=
  (chain_of_foldlM hf h).trans_of refl (fun _ _ _ => trans) (fun _ _ _ _ hk => hk)

/-- A locked mutation keeps the catalog if what it runs does. -/
theorem lockedOrder {orderPk : ℕ} {guard : Order → Result Unit} {function : Order → Result Db}
    (hf : ∀ order, function order = .ok db' → CatalogKept db db')
    (h : SwedeSweets.lockedOrder db orderPk guard function = .ok db') : CatalogKept db db' := by
  obtain ⟨order, -, h⟩ := bind_eq_ok.mp h
  obtain ⟨_, -, h⟩ := bind_eq_ok.mp h
  exact hf order h

/-! ### Reservations -/

/-- Saving allocations writes no batch. -/
theorem saveAllocations {f : Allocation → Result Allocation} {as : List Allocation}
    (h : SwedeSweets.saveAllocations db f as = .ok db') : CatalogKept db db' := by
  refine foldlM (fun a s s' hs => ?_) h
  obtain ⟨a', -, hs⟩ := bind_eq_ok.mp hs
  obtain rfl := pure_eq_ok.mp hs
  exact frame rfl rfl rfl rfl

/-- A reservation inserts allocations. -/
theorem reserveOrderLineFromPool {line : OrderLine} {batches : BatchQuery} {quantity : ℤ}
    {reservedUntil : Option Time}
    (h : SwedeSweets.reserveOrderLineFromPool rt db line batches quantity reservedUntil = .ok db') :
    CatalogKept db db' := by
  simp only [SwedeSweets.reserveOrderLineFromPool, bind_eq_ok, pure_eq_ok] at h
  obtain ⟨_, -, _, -, rfl⟩ := h
  exact frame rfl rfl rfl rfl

/-- Picking lowers a batch's quantity, and it stays of its product. -/
theorem pickBatch {pick : ℕ × ℕ} (h : SwedeSweets.pickBatch rt db pick = .ok db') :
    CatalogKept db db' := by
  obtain ⟨k, q⟩ := pick
  obtain ⟨-, rfl⟩ := pickBatch_eq_ok.mp h
  exact ⟨rfl, rfl, rfl, Table.evolves_modify InventoryBatch.SameProduct.refl (fun _ => rfl)⟩

/-- Consuming picks batches and saves allocations. -/
theorem consumeReservationsForOrder {orderPk : ℕ}
    (h : SwedeSweets.consumeReservationsForOrder rt db orderPk = .ok db') : CatalogKept db db' := by
  simp only [SwedeSweets.consumeReservationsForOrder, bind_eq_ok] at h
  obtain ⟨_, -, _, hpick, hsave⟩ := h
  exact (foldlM (fun _ _ _ => pickBatch) hpick).trans (saveAllocations hsave)

/-! ### Orders -/

/-- Order lines are written to their own table. -/
theorem createOrderLines {order : Order} {lines : List ResolvedOrderLine}
    (h : SwedeSweets.createOrderLines db order lines = .ok db') : CatalogKept db db' := by
  simp only [SwedeSweets.createOrderLines, bind_eq_ok, pure_eq_ok] at h
  obtain ⟨_, -, _, -, rfl⟩ := h
  exact frame rfl rfl rfl rfl

/-- So are orders. -/
theorem insertOrder {channel : Channel} {currency : Currency} {customer : Option ℕ}
    {r : Db × Order} (h : SwedeSweets.insertOrder rt db channel currency customer = .ok r) :
    CatalogKept db r.1 := by
  unfold SwedeSweets.insertOrder at h
  split_ifs at h with hch
  · simp only [bind_eq_ok, pure_eq_ok] at h
    obtain ⟨_, -, _, -, rfl⟩ := h
    exact frame rfl rfl rfl rfl
  · obtain rfl := pure_eq_ok.mp h
    exact frame rfl rfl rfl rfl

/-- A draft is an order with its lines. -/
theorem createDraftOrder {draft : OrderDraft} {r : Db × Order}
    (h : SwedeSweets.createDraftOrder rt db draft = .ok r) : CatalogKept db r.1 := by
  simp only [SwedeSweets.createDraftOrder, bind_eq_ok, pure_eq_ok] at h
  obtain ⟨_, -, r', hinsert, _, hlines, rfl⟩ := h
  exact (insertOrder hinsert).trans (createOrderLines hlines)

/-- Replacing lines rewrites, inserts and deletes lines, and deletes their allocations. -/
theorem replaceLines {order : Order} {incoming : List (ℕ × ResolvedOrderLine)}
    {existing : List (ℕ × OrderLine)}
    (h : SwedeSweets.replaceLines db order incoming existing = .ok db') : CatalogKept db db' := by
  simp only [SwedeSweets.replaceLines, bind_eq_ok] at h
  obtain ⟨_, -, hlines⟩ := h
  have hkept := createOrderLines hlines
  exact ⟨hkept.products, hkept.prices, hkept.areas, hkept.batches⟩

/-- A business line is reserved from its offer's pool. -/
theorem reserveBusinessLine {line : OrderLine}
    (h : SwedeSweets.reserveBusinessLine rt db line = .ok db') : CatalogKept db db' := by
  simp only [SwedeSweets.reserveBusinessLine, bind_eq_ok, mapError_eq_ok] at h
  obtain ⟨_, -, _, -, _, -, h⟩ := h
  exact reserveOrderLineFromPool h

/-- Placement reserves the order's lines one after another. -/
theorem prepareBusinessOrderForPlacement {order : Order}
    (h : SwedeSweets.prepareBusinessOrderForPlacement rt db order = .ok db') :
    CatalogKept db db' := by
  simp only [SwedeSweets.prepareBusinessOrderForPlacement, bind_eq_ok] at h
  obtain ⟨_, -, _, -, h⟩ := h
  exact foldlM (fun _ _ _ => reserveBusinessLine) h

section

variable {orderPk : ℕ} {user : Option ℕ} {preparation : Preparation}
  (hprep : ∀ db order db', preparation db order = .ok db' → CatalogKept db db')

include hprep

/-- An order is placed once its preparation is through. -/
theorem placeOrder (h : SwedeSweets.placeOrder rt db orderPk preparation user = .ok db') :
    CatalogKept db db' := by
  refine lockedOrder (fun order h => ?_) h
  simp only [bind_eq_ok, pure_eq_ok] at h
  obtain ⟨_, hp, _, -, rfl⟩ := h
  exact (hprep _ _ _ hp).trans (frame rfl rfl rfl rfl)

/-- An order is packed once its preparation is through. -/
theorem packOrder (h : SwedeSweets.packOrder rt db orderPk preparation user = .ok db') :
    CatalogKept db db' := by
  refine lockedOrder (fun order h => ?_) h
  simp only [bind_eq_ok, pure_eq_ok] at h
  obtain ⟨_, hp, _, -, rfl⟩ := h
  exact (hprep _ _ _ hp).trans (frame rfl rfl rfl rfl)

/-- An order is cancelled once its preparation is through. -/
theorem cancelOrder {reason note : String}
    (h : SwedeSweets.cancelOrder rt db orderPk preparation user reason note = .ok db') :
    CatalogKept db db' := by
  refine lockedOrder (fun order h => ?_) h
  simp only [bind_eq_ok, pure_eq_ok] at h
  obtain ⟨_, hp, _, -, rfl⟩ := h
  exact (hprep _ _ _ hp).trans (frame rfl rfl rfl rfl)

/-- An edit clears, replaces and reserves again. -/
theorem updatePlacedOrder {lines : List ResolvedOrderLine} {beforeReplacement : Preparation}
    (hbefore : ∀ db order db', beforeReplacement db order = .ok db' → CatalogKept db db')
    (h : SwedeSweets.updatePlacedOrder rt db orderPk lines beforeReplacement preparation user
      = .ok db') : CatalogKept db db' := by
  refine lockedOrder (fun order h => ?_) h
  simp only [bind_eq_ok, pure_eq_ok] at h
  obtain ⟨_, -, _, -, _, -, _, hb, _, hreplace, _, hp, rfl⟩ := h
  exact (((hbefore _ _ _ hb).trans (replaceLines hreplace)).trans (hprep _ _ _ hp)).trans
    (frame rfl rfl rfl rfl)

end

/-- Clearing reservations deletes allocations. -/
theorem clearOrderReservations {order : Order}
    (h : clearOrderReservationsBeforeLineReplacement db order = .ok db') : CatalogKept db db' := by
  obtain rfl := pure_eq_ok.mp h
  exact frame rfl rfl rfl rfl

/-- The edit as the business services call it. -/
theorem updateBusinessOrder {orderPk : ℕ} {lines : List ResolvedOrderLine} {user : Option ℕ}
    (h : SwedeSweets.updatePlacedOrder rt db orderPk lines
      clearOrderReservationsBeforeLineReplacement (SwedeSweets.prepareBusinessOrderForPlacement rt)
      user = .ok db') : CatalogKept db db' :=
  updatePlacedOrder (fun _ _ _ => prepareBusinessOrderForPlacement)
    (fun _ _ _ => clearOrderReservations) h

/-- The ops call commits its draft even when the placement fails. -/
theorem opsCreateOrder (customer : ℕ) (lines : List BusinessOfferLineInput) (user : Option ℕ) :
    CatalogKept db (OpsPortal.createOrder rt db customer lines user).1 := by
  unfold OpsPortal.createOrder
  split
  · exact refl db
  · rename_i drafted order hdraft
    obtain ⟨_, -, hdraft⟩ := bind_eq_ok.mp hdraft
    have hkept := createDraftOrder hdraft
    split
    · exact hkept
    · rename_i placed hplace
      exact hkept.trans (placeOrder (fun _ _ _ => prepareBusinessOrderForPlacement) hplace)

/-! ### Retail -/

/-- A checkout inserts an order with its lines. -/
theorem createPendingRetailOrder {buyer : AnonymousBuyerInput} {lines : List RetailOrderLineInput}
    (h : SwedeSweets.createPendingRetailOrder rt db buyer lines = .ok db') : CatalogKept db db' := by
  simp only [SwedeSweets.createPendingRetailOrder, bind_eq_ok, pure_eq_ok] at h
  obtain ⟨_, -, _, -, _, -, _, -, _, -, _, -, r, hinsert, _, -, rfl⟩ := h
  exact (insertOrder hinsert).trans (frame rfl rfl rfl rfl)

/-- A retail line is reserved from its price's pool. -/
theorem reserveRetailLine {currency : Currency} {reservedUntil : Time} {line : OrderLine}
    (h : SwedeSweets.reserveRetailLine rt currency reservedUntil db line = .ok db') :
    CatalogKept db db' := by
  simp only [SwedeSweets.reserveRetailLine, bind_eq_ok, mapError_eq_ok] at h
  obtain ⟨_, -, _, -, _, -, h⟩ := h
  exact reserveOrderLineFromPool h

/-- A payment attempt is a row of its own table. -/
theorem createPaymentAttempt {orderPk : ℕ} {r : Db × PaymentAttempt}
    (h : SwedeSweets.createPaymentAttempt db orderPk = .ok r) : CatalogKept db r.1 := by
  obtain ⟨o, -, -, amount, hpos, -, -, rfl⟩ := Inv.createPaymentAttempt_eq_ok h
  exact frame rfl rfl rfl rfl

/-- Starting a payment reserves the order and creates the attempt. -/
theorem startRetailPayment {checkoutPk : ℕ} {r : Db × PaymentAttempt}
    (h : SwedeSweets.startRetailPayment rt db checkoutPk = .ok r) : CatalogKept db r.1 := by
  simp only [SwedeSweets.startRetailPayment, bind_eq_ok] at h
  obtain ⟨_, -, _, -, _, -, _, -, _, -, _, -, _, -, _, hcancel, _, hreserve, hattempt⟩ := h
  exact ((saveAllocations hcancel).trans (foldlM (fun _ _ _ => reserveRetailLine) hreserve)).trans
    (createPaymentAttempt hattempt)

/-- Binding a session writes the attempt. -/
theorem createRetailHostedPaymentSession {attemptPk : ℕ} {session : HostedPaymentSession}
    {r : Db × RetailPaymentRedirect}
    (h : SwedeSweets.createRetailHostedPaymentSession db attemptPk session = .ok r) :
    CatalogKept db r.1 := by
  obtain ⟨p, -, -, -, -, -, -, hdb⟩ := Inv.bindHostedPaymentSession_eq_ok.mp
    (Inv.createRetailHostedPaymentSession_eq_ok h)
  rw [hdb]
  exact frame rfl rfl rfl rfl

/-- The start stays committed when the session fails. -/
theorem beginRetailHostedPayment (checkoutPk : ℕ) (session : HostedPaymentSession) :
    CatalogKept db (SwedeSweets.beginRetailHostedPayment rt db checkoutPk session).1 := by
  unfold SwedeSweets.beginRetailHostedPayment
  split
  · exact refl db
  · rename_i started attempt hstart
    have hkept := startRetailPayment hstart
    split
    · exact hkept
    · rename_i bound redirect hbound
      exact hkept.trans (createRetailHostedPaymentSession hbound)

/-- Promotion rewrites deadlines. -/
theorem makeOrderReservationsPermanent {order : Order}
    (h : makeOrderReservationsPermanentBeforePlacement rt db order = .ok db') :
    CatalogKept db db' := by
  simp only [makeOrderReservationsPermanentBeforePlacement, makeReservationsPermanentForOrder,
    mapError_eq_ok, bind_eq_ok, pure_eq_ok] at h
  obtain ⟨_, -, rfl⟩ := h
  exact frame rfl rfl rfl rfl

/-- A completed payment promotes the holds and places the order. -/
theorem completeRetailPayment {attemptPk : ℕ} {providerTransactionId : Option String}
    (h : SwedeSweets.completeRetailPayment rt db attemptPk providerTransactionId = .ok db') :
    CatalogKept db db' := by
  simp only [SwedeSweets.completeRetailPayment, markPaymentAttemptSucceeded, bind_eq_ok,
    pure_eq_ok] at h
  obtain ⟨_, -, _, -, _, -, _, -, _, -, _, -, _, hplace, _, -, _, -, _, -, rfl⟩ := h
  exact (placeOrder (fun _ _ _ => makeOrderReservationsPermanent) hplace).trans
    (frame rfl rfl rfl rfl)

/-- A failed payment writes the attempt and releases the holds. -/
theorem failRetailPayment {attemptPk : ℕ}
    (h : SwedeSweets.failRetailPayment db attemptPk = .ok db') : CatalogKept db db' := by
  simp only [SwedeSweets.failRetailPayment, markPaymentAttemptFailed, bind_eq_ok, pure_eq_ok] at h
  obtain ⟨_, -, _, -, _, -, _, -, _, -, _, -, _, -, _, hcancel, _, -, _, -, rfl⟩ := h
  exact (saveAllocations hcancel).trans (frame rfl rfl rfl rfl)

/-- Reconciliation completes the payment, fails it or does nothing. -/
theorem reconcileRetailPayment {attemptPk : ℕ} {external : ExternalPaymentState}
    (h : SwedeSweets.reconcileRetailPayment rt db attemptPk external = .ok db') :
    CatalogKept db db' := by
  simp only [SwedeSweets.reconcileRetailPayment, reconcilePaymentAttempt, bind_eq_ok] at h
  obtain ⟨_, -, _, -, ⟨attempt, step⟩, -, h⟩ := h
  cases step with
  | done =>
    obtain rfl := pure_eq_ok.mp h
    exact refl db
  | onSucceeded => exact completeRetailPayment h
  | onFailed => exact failRetailPayment h

end CatalogKept

/-- The operation that puts another catalog in place. -/
def Op.writesCatalog : Op → Bool
  | .catalog .. => true
  | _ => false

/-- **The catalog.** No other operation changes it. -/
theorem Op.catalogKept {op : Op} (hop : op.writesCatalog = false) (rt : Runtime) (db : Db) :
    CatalogKept db (op.exec rt db) := by
  -- One case for each operation; the batch services are the ones that touch a catalog table.
  cases op with
  | catalog => cases hop
  | createBatch =>
    refine Db.commit_of (fun db' hok => ?_) (CatalogKept.refl db)
    obtain ⟨-, -, product, batchId, location, rfl⟩ := createBatch_eq_ok hok
    exact ⟨rfl, rfl, rfl, Table.evolves_insert InventoryBatch.SameProduct.refl _ _⟩
  | updateBatch =>
    refine Db.commit_of (fun db' hok => ?_) (CatalogKept.refl db)
    obtain ⟨b, hb, -, -, -, -, -, location, rfl⟩ := updateBatch_eq_ok hok
    exact ⟨rfl, rfl, rfl, Table.evolves_put InventoryBatch.SameProduct.refl hb rfl rfl⟩
  | closeBatch =>
    refine Db.commit_of (fun db' hok => ?_) (CatalogKept.refl db)
    obtain ⟨b, hb, -, -, rfl⟩ := closeBatch_eq_ok.mp hok
    exact ⟨rfl, rfl, rfl, Table.evolves_put InventoryBatch.SameProduct.refl hb rfl rfl⟩
  | openDraft customer =>
    refine Db.commit_of (fun db' hok => ?_) (CatalogKept.refl db)
    obtain ⟨r, hr, rfl⟩ := map_eq_ok.mp hok
    unfold Business.getOrCreateCustomerDraftOrder at hr
    split at hr
    · obtain rfl := pure_eq_ok.mp hr
      exact CatalogKept.refl db
    · exact CatalogKept.insertOrder hr
  | addDraftLine orderPk line =>
    refine Db.commit_of (fun db' hok => ?_) (CatalogKept.refl db)
    obtain ⟨_, -, hok⟩ := bind_eq_ok.mp hok
    refine CatalogKept.lockedOrder (fun order h => ?_) hok
    simp only [bind_eq_ok, pure_eq_ok] at h
    obtain ⟨_, -, _, -, _, -, rfl⟩ := h
    exact CatalogKept.frame rfl rfl rfl rfl
  | setDraftLine orderPk orderLineId quantityInUnits =>
    refine Db.commit_of (fun db' hok => ?_) (CatalogKept.refl db)
    obtain ⟨_, -, hok⟩ := bind_eq_ok.mp hok
    refine CatalogKept.lockedOrder (fun order h => ?_) hok
    simp only [bind_eq_ok, pure_eq_ok] at h
    obtain ⟨_, -, _, -, _, -, rfl⟩ := h
    exact CatalogKept.frame rfl rfl rfl rfl
  | removeDraftLine orderPk orderLineId =>
    refine Db.commit_of (fun db' hok => ?_) (CatalogKept.refl db)
    obtain ⟨_, -, hok⟩ := bind_eq_ok.mp hok
    refine CatalogKept.lockedOrder (fun order h => ?_) hok
    simp only [bind_eq_ok, pure_eq_ok] at h
    obtain ⟨_, -, rfl⟩ := h
    exact CatalogKept.frame rfl rfl rfl rfl
  | placeOrder =>
    exact Db.commit_of (fun db' hok => CatalogKept.placeOrder
      (fun _ _ _ => CatalogKept.prepareBusinessOrderForPlacement) hok) (CatalogKept.refl db)
  | createOrder =>
    refine Db.commit_of (fun db' hok => ?_) (CatalogKept.refl db)
    simp only [Business.createOrder, Business.createDraftOrder, bind_eq_ok] at hok
    obtain ⟨r, ⟨_, -, hdraft⟩, hplace⟩ := hok
    exact (CatalogKept.createDraftOrder hdraft).trans (CatalogKept.placeOrder
      (fun _ _ _ => CatalogKept.prepareBusinessOrderForPlacement) hplace)
  | updatePlacedOrder =>
    refine Db.commit_of (fun db' hok => ?_) (CatalogKept.refl db)
    obtain ⟨_, -, hok⟩ := bind_eq_ok.mp hok
    exact CatalogKept.updateBusinessOrder hok
  | opsCreateOrder customer lines user => exact CatalogKept.opsCreateOrder customer lines user
  | opsUpdatePlacedOrder =>
    refine Db.commit_of (fun db' hok => ?_) (CatalogKept.refl db)
    obtain ⟨_, -, hok⟩ := bind_eq_ok.mp hok
    exact CatalogKept.updateBusinessOrder hok
  | createPendingRetailOrder =>
    exact Db.commit_of (fun db' hok => CatalogKept.createPendingRetailOrder hok)
      (CatalogKept.refl db)
  | startRetailPayment checkoutPk =>
    refine Db.commit_of (fun db' hok => ?_) (CatalogKept.refl db)
    obtain ⟨r, hr, rfl⟩ := map_eq_ok.mp hok
    exact CatalogKept.startRetailPayment hr
  | beginRetailHostedPayment checkoutPk session =>
    exact CatalogKept.beginRetailHostedPayment checkoutPk session
  | retryRetailHostedPayment attemptPk session =>
    refine Db.commit_of (fun db' hok => ?_) (CatalogKept.refl db)
    obtain ⟨r, hr, rfl⟩ := map_eq_ok.mp hok
    exact CatalogKept.createRetailHostedPaymentSession hr
  | completeRetailPayment =>
    exact Db.commit_of (fun db' hok => CatalogKept.completeRetailPayment hok) (CatalogKept.refl db)
  | failRetailPayment =>
    exact Db.commit_of (fun db' hok => CatalogKept.failRetailPayment hok) (CatalogKept.refl db)
  | reconcileRetailPayment =>
    exact Db.commit_of (fun db' hok => CatalogKept.reconcileRetailPayment hok) (CatalogKept.refl db)
  | cancelPendingPaymentAttempts =>
    refine Db.commit_of (fun db' hok => ?_) (CatalogKept.refl db)
    simp only [cancelPendingPaymentAttemptsForOrder, bind_eq_ok, pure_eq_ok] at hok
    obtain ⟨_, -, rfl⟩ := hok
    exact CatalogKept.frame rfl rfl rfl rfl
  | packOrder =>
    refine Db.commit_of (fun db' hok => CatalogKept.packOrder (fun d o d' hp => ?_) hok)
      (CatalogKept.refl db)
    exact CatalogKept.consumeReservationsForOrder (mapError_eq_ok.mp hp)
  | deliverOrder =>
    refine Db.commit_of (fun db' hok => ?_) (CatalogKept.refl db)
    refine CatalogKept.lockedOrder (fun order h => ?_) hok
    simp only [bind_eq_ok, pure_eq_ok] at h
    obtain ⟨_, -, rfl⟩ := h
    exact CatalogKept.frame rfl rfl rfl rfl
  | cancelOrder =>
    exact Db.commit_of (fun db' hok => CatalogKept.cancelOrder
      (fun _ _ _ => CatalogKept.saveAllocations) hok) (CatalogKept.refl db)

end SwedeSweets
