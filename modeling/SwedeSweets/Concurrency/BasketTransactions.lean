import SwedeSweets.Business.DraftEffects
import SwedeSweets.Lib.Turns

namespace SwedeSweets

open Relational Fallible ReadCommitted

/-!
# Adding to a business draft, as a transaction

`add_catalog_offer_to_draft_order` statement by statement (`Business.addCatalogOfferTx`): the
look-up in the catalog, the search for the draft of the customer, its creation behind the unique
constraint, and the line that is resized or inserted.

`Business.exec_addCatalogOffer` — on its own, the transaction does what the service computes.
-/

/-- What a statement locks: the row of an order, or the entry of a customer's draft in the unique
    index. -/
inductive BasketRow where
  | order (pk : ℕ)
  | draftOf (customer : ℕ)
  deriving DecidableEq

abbrev BasketTx (ω : Type) := Tx BasketRow Db Error ω

/-- The business drafts of a customer, in `id` order. -/
def Db.draftsOf (db : Db) (customer : ℕ) : List Order :=
  db.orders.select (isBusinessDraftOf customer)

namespace Business

/-- A call of `add_catalog_offer_to_draft_order`. -/
structure CatalogCall where
  product : Product
  commercialPriceId : ℕ
  quantity : ℤ

variable {ω : Type}

/-! ### The draft -/

/-- What a lock on an order returns: the row, when it is still a draft of the customer. -/
def lockedDraft (customer : ℕ) : BasketRow → Db → List Order
  | .order pk, db => (db.orders.get? pk).toList.filter (isBusinessDraftOf customer)
  | .draftOf _, _ => []

/-- `select_for_update` on the drafts of a customer; `rows` are those the query asks for. -/
def lockDraftsTx (customer : ℕ) (rows : List Order → List Order)
    (k : List Order → BasketTx ω) : BasketTx ω :=
  .read fun db =>
  .lockRows (lockedDraft customer) ((rows (db.draftsOf customer)).map (fun o => .order o.pk)) [] k

/-- `.order_by("created_at", "id").first()`. -/
def firstCreated (drafts : List Order) : List Order :=
  (drafts.insertionSort
    (fun a b => a.createdAt < b.createdAt ∨ (a.createdAt = b.createdAt ∧ a.pk ≤ b.pk))).take 1

/-- `.get(...)` on the rows of a query. -/
def getOne : List Order → Result Order
  | [order] => return order
  | [] => throw (.doesNotExist "Order")
  | _ => throw (.multipleObjectsReturned "Order")

/-- The insertion of a draft, in a savepoint.  When another transaction has inserted one it raises
    IntegrityError, and the draft that is there now is fetched and locked. -/
def insertDraftTx (rt : Runtime) (customer : ℕ) (k : Order → BasketTx ω) : BasketTx ω :=
  .clock fun now =>
  .claim (.draftOf customer) (fun db => db.draftsOf customer = [])
    (fun db =>
      let row := newOrder { rt with now := now } .business .eur (some customer)
      .write (fun db => { db with orders := db.orders.insert row }) <|
      k (row.make db.orders.next))
    (lockDraftsTx customer id fun drafts => .attempt (getOne drafts) k)

/-- `get_or_create_customer_draft_order`. -/
def getOrCreateDraftTx (rt : Runtime) (customer : ℕ) (k : Order → BasketTx ω) : BasketTx ω :=
  lockDraftsTx customer firstCreated fun drafts =>
  match drafts with
  | draft :: _ => k draft
  | [] => insertDraftTx rt customer k

/-! ### The line -/

/-- `locked_order` around a mutation of a draft. -/
def lockedDraftTx (orderPk : ℕ) (function : Order → BasketTx ω) : BasketTx ω :=
  .lock (.order orderPk) fun db =>
  .attempt (db.getOrder orderPk) fun order =>
  .attempt (requireDraftForEdit order) fun _ => function order

/-- `set_draft_order_line_quantity`; the quantity that is written was computed before. -/
def setLineQuantityTx (orderPk orderLineId : ℕ) (quantityInUnits : ℤ) (k : BasketTx ω) :
    BasketTx ω :=
  lockedDraftTx orderPk fun order =>
  .attempt (requirePositiveQuantity quantityInUnits) fun _ =>
  .read fun db =>
  .attempt (findOrderLine db order orderLineId) fun line =>
  .attempt (line.resize quantityInUnits) fun row =>
  .write (fun db => { db with lines := db.lines.put row }) k

/-- `add_draft_order_line`, and the selection of the line it returns. -/
def addLineTx (orderPk : ℕ) (line : ResolvedOrderLine) (commercialPriceId : ℕ) (k : BasketTx ω) :
    BasketTx ω :=
  lockedDraftTx orderPk fun order =>
  .attempt (requirePositiveQuantity line.quantityInUnits) fun _ =>
  .attempt (validateCommercialOffer order line) fun _ =>
  .attempt (newOrderLine order line) fun row =>
  .read fun db =>
  .write (fun db => { db with lines := db.lines.insert row.row }) <|
  .write (fun after => { after with
    lines := after.lines.modify (fun l => l.pk = db.lines.next)
      (selectBusinessOffer commercialPriceId) }) k

/-- The statements after the draft was found: lock it, find the line, check, write. -/
def addOfferTx (call : CatalogCall) (offer : CatalogOffer) (orderPk : ℕ) (k : BasketTx ω) :
    BasketTx ω :=
  .lock (.order orderPk) fun db =>
  .attempt (db.getOrder orderPk) fun order =>
  .read fun db =>
  let existingLine := findLineForOffer db order call.product call.commercialPriceId
  let requestedOfferQuantity := lineQuantity existingLine.toList + call.quantity
  .attempt (require (requestedOfferQuantity ≤ offer.availableUnits) (.invalidOrderOperation
    ("only " ++ toString offer.availableUnits
      ++ " units are currently available for this offer"))) fun _ =>
  .read fun db =>
  .attempt (requireUsualQuantity (lineQuantity ((db.orderLines order.pk).filter
    (fun l => l.productId = call.product.pk)) + call.quantity)) fun _ =>
  match existingLine with
  | some line => setLineQuantityTx order.pk line.pk requestedOfferQuantity k
  | none =>
      .read fun db =>
      .attempt (db.getCommercialPrice offer.commercialPriceId) fun commercialOffer =>
      addLineTx order.pk ⟨call.product, call.quantity, commercialOffer, offer.price⟩
        offer.commercialPriceId k

/-- `add_catalog_offer_to_draft_order`; the worker signs the commit. -/
def addCatalogOfferTx (rt : Runtime) (customer : ℕ) (call : CatalogCall) (w : ω) : BasketTx ω :=
  .attempt (require (0 < call.quantity) (.invalidOrderOperation "quantity must be positive")) fun _ =>
  .clock fun now =>
  .read fun db =>
  .attempt (getCatalogProduct { rt with now := now } db call.product.pk) fun catalogProduct =>
  .attempt (getCatalogOffer catalogProduct call.commercialPriceId) fun offer =>
  getOrCreateDraftTx rt customer fun order =>
  addOfferTx call offer order.pk (.commit [w])

/-! ### One transaction on its own -/

section

variable {times : ℕ → Prop} {db db' : Db} {note : List ω} {customer : ℕ}

/-- Rows that are still drafts are returned by the lock. -/
theorem flatMap_lockedDraft {drafts : List Order} (h : ∀ o ∈ drafts, o ∈ db.draftsOf customer) :
    (drafts.map (fun o => BasketRow.order o.pk)).flatMap (fun r => lockedDraft customer r db)
      = drafts := by
  induction drafts with
  | nil => rfl
  | cons o os ih =>
    obtain ⟨ho, hdraft⟩ := Table.mem_select.mp (h o (List.mem_cons_self ..))
    have hget : db.orders.get? o.pk = some o := Table.get?_self ho
    rw [List.map_cons, List.flatMap_cons, ih (fun x hx => h x (List.mem_cons_of_mem _ hx))]
    simp [lockedDraft, hget, hdraft]

/-- Locking drafts on one's own returns them. -/
theorem outcome_lockDrafts {rows : List Order → List Order} {k : List Order → BasketTx ω}
    (hrows : ∀ drafts, ∀ o ∈ rows drafts, o ∈ drafts) :
    (lockDraftsTx customer rows k).Outcome times db db' note ↔
      (k (rows (db.draftsOf customer))).Outcome times db db' note := by
  show (Tx.lockRows _ _ [] k).Outcome times db db' note ↔ _
  rw [Tx.outcome_lockRows, flatMap_lockedDraft (hrows _), List.nil_append]

/-- The oldest draft is one of the drafts. -/
theorem mem_of_mem_firstCreated (drafts : List Order) : ∀ o ∈ firstCreated drafts, o ∈ drafts :=
  fun _ ho => (List.mem_insertionSort _).mp (List.mem_of_mem_take ho)

/-- The locked draft is the one read, and it is checked. -/
theorem outcome_lockedDraft {orderPk : ℕ} {function : Order → BasketTx ω} :
    (lockedDraftTx orderPk function).Outcome times db db' note ↔
      ∃ o, db.getOrder orderPk = .ok o ∧ ∃ u, requireDraftForEdit o = .ok u
        ∧ (function o).Outcome times db db' note := by
  show (Tx.attempt _ _).Outcome times db db' note ↔ _
  simp only [Tx.outcome_attempt]

/-- On its own, the statement does what the service does. -/
theorem outcome_setLineQuantity {orderPk lineId : ℕ} {quantity : ℤ} {k : BasketTx ω} :
    (setLineQuantityTx orderPk lineId quantity k).Outcome times db db' note ↔
      ∃ db₁, setDraftOrderLineQuantity db orderPk lineId quantity = .ok db₁
        ∧ k.Outcome times db₁ db' note := by
  unfold setLineQuantityTx setDraftOrderLineQuantity lockedOrder
  simp only [outcome_lockedDraft, Tx.outcome_attempt, Tx.Outcome, bind_eq_ok, pure_eq_ok]
  constructor
  · rintro ⟨o, ho, u, hu, v, hv, line, hline, row, hrow, hk⟩
    exact ⟨_, ⟨o, ho, u, hu, v, hv, line, hline, row, hrow, rfl⟩, hk⟩
  · rintro ⟨db₁, ⟨o, ho, u, hu, v, hv, line, hline, row, hrow, rfl⟩, hk⟩
    exact ⟨o, ho, u, hu, v, hv, line, hline, row, hrow, hk⟩

/-- On its own, the line is added with its selection. -/
theorem outcome_addLine {orderPk commercialPriceId : ℕ} {line : ResolvedOrderLine}
    {k : BasketTx ω} :
    (addLineTx orderPk line commercialPriceId k).Outcome times db db' note ↔
      ∃ db₁, addDraftOrderLine db orderPk line = .ok db₁ ∧ k.Outcome times { db₁ with
        lines := db₁.lines.modify (fun l => l.pk = db.lines.next)
          (selectBusinessOffer commercialPriceId) } db' note := by
  unfold addLineTx addDraftOrderLine lockedOrder
  simp only [outcome_lockedDraft, Tx.outcome_attempt, Tx.Outcome, bind_eq_ok, pure_eq_ok]
  constructor
  · rintro ⟨o, ho, u, hu, v, hv, offer, hoffer, row, hrow, hk⟩
    exact ⟨_, ⟨o, ho, u, hu, v, hv, offer, hoffer, row, hrow, rfl⟩, hk⟩
  · rintro ⟨db₁, ⟨o, ho, u, hu, v, hv, offer, hoffer, row, hrow, rfl⟩, hk⟩
    exact ⟨o, ho, u, hu, v, hv, offer, hoffer, row, hrow, hk⟩

/-- From a draft on, the statements do what `addOffer` computes. -/
theorem outcome_addOffer {call : CatalogCall} {offer : CatalogOffer} {o : Order} {k : BasketTx ω}
    (ho : o ∈ db.orders) :
    (addOfferTx call offer o.pk k).Outcome times db db' note ↔
      ∃ db₁, addOffer db o call.product offer call.commercialPriceId call.quantity = .ok db₁
        ∧ k.Outcome times db₁ db' note := by
  have hget : db.getOrder o.pk = .ok o := Db.getOrder_eq_ok.mpr ⟨ho, rfl⟩
  show (Tx.attempt _ _).Outcome times db db' note ↔ _
  unfold addOffer
  simp only [Tx.outcome_attempt, Tx.Outcome, hget, Except.ok.injEq, exists_eq_left', bind_eq_ok]
  -- the service and the transaction branch on the same line
  cases hfind : findLineForOffer db o call.product call.commercialPriceId with
  | some line =>
    simp only [outcome_setLineQuantity]
    constructor
    · rintro ⟨u, hu, v, hv, db₁, hset, hk⟩
      exact ⟨db₁, ⟨u, hu, v, hv, hset⟩, hk⟩
    · rintro ⟨db₁, ⟨u, hu, v, hv, hset⟩, hk⟩
      exact ⟨u, hu, v, hv, db₁, hset, hk⟩
  | none =>
    simp only [Tx.Outcome, Tx.outcome_attempt, outcome_addLine, bind_eq_ok, pure_eq_ok]
    constructor
    · rintro ⟨u, hu, v, hv, price, hprice, db₁, hadd, hk⟩
      exact ⟨_, ⟨u, hu, v, hv, price, hprice, db₁, hadd, rfl⟩, hk⟩
    · rintro ⟨db₁, ⟨u, hu, v, hv, price, hprice, db₂, hadd, rfl⟩, hk⟩
      exact ⟨u, hu, v, hv, price, hprice, db₂, hadd, hk⟩

/-- On its own, the search for the draft does what the service computes. -/
theorem outcome_getOrCreateDraft {rt : Runtime} {k : Order → BasketTx ω} :
    (getOrCreateDraftTx rt customer k).Outcome (· = rt.now) db db' note ↔
      ∃ r, getOrCreateCustomerDraftOrder rt db customer = .ok r
        ∧ (k r.2).Outcome (· = rt.now) r.1 db' note := by
  unfold getOrCreateDraftTx
  rw [outcome_lockDrafts mem_of_mem_firstCreated]
  unfold getOrCreateCustomerDraftOrder firstCreated Db.draftsOf
  cases hsorted : (db.orders.select (isBusinessDraftOf customer)).insertionSort
    (fun a b => a.createdAt < b.createdAt ∨ (a.createdAt = b.createdAt ∧ a.pk ≤ b.pk)) with
  | cons draft rest =>
    show (k draft).Outcome (· = rt.now) db db' note ↔ _
    simp only [pure_eq_ok, exists_eq_left']
  -- no draft is locked, so one is inserted
  | nil =>
    have hnone : db.orders.select (isBusinessDraftOf customer) = [] := by
      have hperm := List.perm_insertionSort (fun a b : Order => a.createdAt < b.createdAt
        ∨ (a.createdAt = b.createdAt ∧ a.pk ≤ b.pk)) (db.orders.select (isBusinessDraftOf customer))
      rw [hsorted] at hperm
      exact hperm.symm.eq_nil
    show (insertDraftTx rt customer k).Outcome (· = rt.now) db db' note ↔ _
    unfold insertDraftTx insertOrder
    simp only [Tx.Outcome, Db.draftsOf, hnone, exists_eq_left, decide_true, true_and, if_true,
      orRaise, bind_eq_ok, require_eq_ok, exists_const, pure_eq_ok, Except.ok.injEq,
      exists_eq_left', Bool.true_eq_false, false_and, or_false]

/-- **On its own.** At one clock the transaction commits what the service computes. -/
theorem exec_addCatalogOffer {rt : Runtime} {call : CatalogCall} {w : ω} :
    (addCatalogOfferTx rt customer call w).exec rt.now db = .ok (db', note) ↔
      note = [w] ∧ ∃ o, addCatalogOfferToDraftOrder rt db customer call.product
        call.commercialPriceId call.quantity = .ok (db', o) := by
  rw [Tx.exec_eq_ok]
  unfold addCatalogOfferTx
  simp only [Tx.outcome_attempt, Tx.Outcome, exists_eq_left, outcome_getOrCreateDraft]
  simp only [addCatalogOffer_eq, bind_eq_ok, require_eq_ok, pure_eq_ok, Prod.mk.injEq,
    exists_const]
  constructor
  -- the draft that was got is where the offer is added
  · rintro ⟨hpos, row, hrow, offer, hoffer, ⟨db₁, o⟩, hdraft, hadd⟩
    rw [outcome_addOffer (getOrCreateDraft_eq_ok hdraft).1] at hadd
    obtain ⟨db₂, hadd, rfl, rfl⟩ := hadd
    exact ⟨rfl, o, hpos, row, hrow, offer, hoffer, (db₁, o), hdraft, db₂, hadd, rfl, rfl⟩
  · rintro ⟨rfl, o, hpos, row, hrow, offer, hoffer, ⟨db₁, o'⟩, hdraft, db₂, hadd, rfl, rfl⟩
    exact ⟨hpos, row, hrow, offer, hoffer, (db₁, o'), hdraft,
      (outcome_addOffer (getOrCreateDraft_eq_ok hdraft).1).mpr ⟨db₂, hadd, rfl, rfl⟩⟩

end

end Business

end SwedeSweets
