import SwedeSweets.Inventory.Selectors
import SwedeSweets.Lib.Dict
import SwedeSweets.Orders.Services
import SwedeSweets.Pricing.Selectors
import SwedeSweets.Reservations.Services

namespace SwedeSweets

open Relational Fallible

/-!
# Business orders

Resolving business input into order lines (`resolveBusinessOfferLines`,
`resolveBusinessOrderLines`), the placement policy of the channel
(`prepareBusinessOrderForPlacement`), and the services of the business portal and of the
ops portal on business orders.
-/

/-- One explicitly selected BUSINESS commercial offer. -/
structure BusinessOfferLineInput where
  commercialOfferId : ℕ
  quantity : ℚ
  unit : OrderUnit

/-- A selection as it is entered, its unit still a text. -/
structure RawOfferLine where
  commercialOfferId : ℕ
  quantity : ℚ
  unit : String

/-- `BusinessOfferLineInput.__post_init__`. -/
def RawOfferLine.toInput (line : RawOfferLine) : Result BusinessOfferLineInput := do
  return ⟨line.commercialOfferId, line.quantity, ← normalizeOrderUnit line.unit⟩

/-- Product input; the product is named by its key, by an instance, or by both. -/
structure OrderLineInput where
  quantity : ℚ
  unit : OrderUnit
  productId : Option ℕ
  product : Option ℕ

def OrderLineInput.resolveProductId (line : OrderLineInput) : Result ℕ :=
  match line.productId, line.product with
  | some productId, some product => do
      require (productId = product) (.invalidOrderOperation
        ("product_id (" ++ toString productId ++ ") and product (" ++ toString product
          ++ ") refer to different products"))
      return productId
  | some productId, none => return productId
  | none, some product => return product
  | none, none => throw (.invalidOrderOperation "product_id or product is required")

/-! ### Resolving input -/

/-- The checks on one selected offer; the price snapshot it gives. -/
def validateOfferSelection (db : Db) (offer : CommercialPrice) :
    Result (CommercialPrice × Product × Option Cents) := do
  let product ← db.getProduct offer.productId
  require (offer.channel = .business)
    (.invalidOrderOperation "commercial offer does not belong to the business channel")
  require (product.active = true ∧ offer.enabled = true)
    (.invalidOrderOperation "selected business offer is not currently available")
  let amount := offer.findAmount .eur
  require (¬(offer.batchId ≠ none ∧ amount = none))
    (.invalidOrderOperation "business batch offer requires an EUR price")
  return (offer, product, amount.map PriceAmount.price)

/-- Resolve explicit BUSINESS offer selections into order lines. -/
def resolveBusinessOfferLines (db : Db) (lineInputs : List BusinessOfferLineInput) :
    Result (List ResolvedOrderLine) := do
  let offerIds := (lineInputs.map BusinessOfferLineInput.commercialOfferId).dedup
  let offersById := db.commercialPrices.select (fun o => offerIds.contains o.pk)
  let missingOfferIds := (offerIds.filter
    (fun id => !(offersById.map CommercialPrice.pk).contains id)).insertionSort (· ≤ ·)
  require (missingOfferIds = []) (.invalidOrderOperation
    ("Business offer does not exist: " ++ String.intercalate ", " (missingOfferIds.map toString)))
  let selections ← offersById.mapM (validateOfferSelection db)
  let quantityByOfferId ← lineInputs.foldlM (fun (quantities : Dict ℕ ℤ) lineInput => do
    let selection ← orRaise (selections.find? (fun s => s.1.pk = lineInput.commercialOfferId))
      .keyError
    let quantityInUnits ← quantityToUnits selection.2.1 lineInput.quantity lineInput.unit
    requirePositiveQuantity quantityInUnits
    return quantities.add selection.1.pk quantityInUnits) Dict.empty
  quantityByOfferId.entries.mapM (fun e => do
    let selection ← orRaise (selections.find? (fun s => s.1.pk = e.1)) .keyError
    return ⟨selection.2.1, e.2, selection.1, selection.2.2⟩)

/-- The standard BUSINESS offer of a product. -/
def standardBusinessOffer (db : Db) (productId : ℕ) : Option CommercialPrice :=
  db.commercialPrices.rows.find?
    (fun o => o.productId = productId && o.channel = .business && o.batchId.isNone)

/-- Resolve standard BUSINESS offers for several products. -/
def standardBusinessOffersByProductId (db : Db) (products : List Product) :
    Result (List (ℕ × CommercialPrice)) := do
  let missing := products.filter (fun p => (standardBusinessOffer db p.pk).isNone)
  require (missing = []) (.runtimeError
    ("business ordering invariant violated: missing standard BUSINESS offer for "
      ++ String.intercalate ", "
        ((missing.map Product.displayName).insertionSort (· ≤ ·))))
  let disabled := products.filter
    (fun p => (standardBusinessOffer db p.pk).all (fun o => !o.enabled))
  require (disabled = []) (.invalidOrderOperation
    ("product is not available for business ordering: "
      ++ String.intercalate ", "
        ((disabled.map Product.displayName).insertionSort (· ≤ ·))))
  products.mapM (fun p => do
    let offer ← orRaise (standardBusinessOffer db p.pk) .keyError
    return (p.pk, offer))

/-- Resolve business quantities to physical stock units. -/
def resolveBusinessOrderLines (db : Db) (lineInputs : List OrderLineInput) :
    Result (List ResolvedOrderLine) := do
  let resolvedInputs ← lineInputs.mapM (fun lineInput => do
    return (lineInput, ← lineInput.resolveProductId))
  let quantityByProductId ← resolvedInputs.foldlM (fun (quantities : Dict ℕ ℤ) e => do
    let product ← orRaise (db.products.get? e.2)
      (.invalidOrderOperation ("Product " ++ toString e.2 ++ " does not exist"))
    let quantityInUnits ← quantityToUnits product e.1.quantity e.1.unit
    requirePositiveQuantity quantityInUnits
    return quantities.add e.2 quantityInUnits) Dict.empty
  let products ← quantityByProductId.keys.mapM db.getProduct
  let offers ← standardBusinessOffersByProductId db products
  quantityByProductId.entries.mapM (fun e => do
    let product ← db.getProduct e.1
    let offer ← orRaise (offers.lookup e.1) .keyError
    return ⟨product, e.2, offer, none⟩)

/-- A business draft needs at least one line. -/
def businessOrderDraft (customer : ℕ) (resolvedLines : List ResolvedOrderLine) :
    Result OrderDraft := do
  require (resolvedLines ≠ []) (.invalidOrderOperation "order must contain at least one line")
  return ⟨.business, .eur, some customer, resolvedLines⟩

/-- Resolve business input into a channel-agnostic order draft. -/
def buildBusinessOrderDraft (db : Db) (customer : ℕ) (lines : List OrderLineInput) : Result OrderDraft := do
  businessOrderDraft customer (← resolveBusinessOrderLines db lines)

/-- Build a BUSINESS order draft from explicit commercial offers. -/
def buildOpsOrderDraft (db : Db) (customer : ℕ) (lines : List BusinessOfferLineInput) :
    Result OrderDraft := do
  businessOrderDraft customer (← resolveBusinessOfferLines db lines)

/-! ### Placement policy -/

def validateBusinessOffer (line : OrderLine) (product : Product) (offer : CommercialPrice) :
    Result Unit := do
  require (offer.productId = line.productId)
    (.invalidOrderOperation "commercial offer does not belong to the order-line product")
  require (offer.channel = .business)
    (.invalidOrderOperation "commercial offer does not belong to the business channel")
  require (product.active = true ∧ offer.enabled = true)
    (.invalidOrderOperation "selected business offer is no longer available")
  require (¬(offer.batchId ≠ none ∧ offer.hasAmount .eur = false))
    (.invalidOrderOperation "selected business batch offer is no longer available")

/-- Reserve one business line from the pool of its offer. -/
def reserveBusinessLine (rt : Runtime) (db : Db) (line : OrderLine) : Result Db := do
  let product ← db.getProduct line.productId
  let offer ← db.getCommercialPrice line.commercialOfferId
  validateBusinessOffer line product offer
  (reserveOrderLineFromPool rt db line (listOrderableBatchesForOffer rt db offer .eur)
    line.quantityInUnits none).mapError (stockError product)

/-- Reserve inventory according to each line's commercial offer. -/
def prepareBusinessOrderForPlacement (rt : Runtime) : Preparation := fun db order => do
  require (order.channel = .business)
    (.invalidOrderOperation "Business placement policy requires a business order")
  let lines := db.orderLines order.pk
  require (lines ≠ []) (.invalidOrderOperation "order must contain at least one line")
  lines.foldlM (reserveBusinessLine rt) db

/-! ### Business portal -/

namespace Business

/-- Create an ordinary unpriced business order in DRAFT status. -/
def createDraftOrder (rt : Runtime) (db : Db) (customer : ℕ) (lines : List OrderLineInput) :
    Result (Db × Order) := do
  let draft ← buildBusinessOrderDraft db customer lines
  SwedeSweets.createDraftOrder rt db draft

/-- Place a business draft order. -/
def placeOrder (rt : Runtime) (db : Db) (orderPk : ℕ) (user : Option ℕ) : Result Db :=
  SwedeSweets.placeOrder rt db orderPk (prepareBusinessOrderForPlacement rt) user

/-- Create and immediately place an ordinary business order. -/
def createOrder (rt : Runtime) (db : Db) (customer : ℕ) (lines : List OrderLineInput)
    (user : Option ℕ) : Result Db := do
  let (db, order) ← createDraftOrder rt db customer lines
  placeOrder rt db order.pk user

/-- Update ordinary lines and rebuild the business reservation. -/
def updatePlacedOrder (rt : Runtime) (db : Db) (orderPk : ℕ) (lines : List OrderLineInput)
    (user : Option ℕ) : Result Db := do
  let resolvedLines ← resolveBusinessOrderLines db lines
  SwedeSweets.updatePlacedOrder rt db orderPk resolvedLines
    clearOrderReservationsBeforeLineReplacement (prepareBusinessOrderForPlacement rt) user

/-- Return the customer's active business draft, creating one if needed. -/
def getOrCreateCustomerDraftOrder (rt : Runtime) (db : Db) (customer : ℕ) :
    Result (Db × Order) :=
  match (db.orders.select (isBusinessDraftOf customer)).insertionSort
      (fun a b => a.createdAt < b.createdAt ∨ (a.createdAt = b.createdAt ∧ a.pk ≤ b.pk)) with
  | draft :: _ => return (db, draft)
  | [] => insertOrder rt db .business .eur (some customer)

/-- The business portal edits business drafts only. -/
def requireBusinessOrder (db : Db) (orderPk : ℕ) : Result Unit := do
  let order ← db.getOrder orderPk
  require (order.channel = .business) (.invalidOrderOperation "requires a business order")

end Business

/-! ### Ops portal -/

namespace OpsPortal

/-- Create and immediately place an order from the ops portal.  The draft is created in a
    transaction of its own, so it stays behind when the placement raises: the database is
    returned beside the outcome. -/
def createOrder (rt : Runtime) (db : Db) (customer : ℕ) (lines : List BusinessOfferLineInput)
    (user : Option ℕ) : Db × Result Unit :=
  match (do
      let draft ← buildOpsOrderDraft db customer lines
      createDraftOrder rt db draft : Result (Db × Order)) with
  | .error e => (db, .error e)
  | .ok (drafted, order) =>
      match SwedeSweets.placeOrder rt drafted order.pk (prepareBusinessOrderForPlacement rt) user with
      | .error e => (drafted, .error e)
      | .ok placed => (placed, .ok ())

/-- Edit a placed order; the checklist marks are kept elsewhere. -/
def updatePlacedOrder (rt : Runtime) (db : Db) (orderPk : ℕ)
    (lines : List BusinessOfferLineInput) (user : Option ℕ) : Result Db := do
  let resolvedLines ← resolveBusinessOfferLines db lines
  SwedeSweets.updatePlacedOrder rt db orderPk resolvedLines
    clearOrderReservationsBeforeLineReplacement (prepareBusinessOrderForPlacement rt) user

end OpsPortal

end SwedeSweets
