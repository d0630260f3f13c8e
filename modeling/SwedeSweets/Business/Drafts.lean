import SwedeSweets.Business.Selectors
import SwedeSweets.Business.Services

namespace SwedeSweets

open Relational Fallible

/-!
# Business drafts

The mutations of the business portal on the one draft of a customer.  An *explicit* line was
chosen from the catalog and has a `BusinessOfferSelection` of its offer; a *legacy* line has
none.  `Business.addCatalogOfferToDraftOrder` looks for the explicit line of the offer,
`Business.addProductToDraftOrder` for the legacy line of the product.
-/

/-! ### Limits -/

def maxQuantityPerProductPerOrder : ℤ := 1000

def isUnusuallyLargeOrderLine (quantity : ℤ) : Bool := maxQuantityPerProductPerOrder < quantity

/-- The guardrail on the units of one product in one order. -/
def requireUsualQuantity (quantity : ℤ) : Result Unit :=
  require (isUnusuallyLargeOrderLine quantity = false) (.invalidOrderOperation
    ("maximum quantity per product is " ++ toString maxQuantityPerProductPerOrder))

/-! ### Shared services on a draft -/

def requireDraftForDiscard : Order → Result Unit :=
  requireStatus .draft "Only draft orders can be discarded; current status is "

/-- Replace lines using already resolved line data. -/
def replaceDraftOrderLines (db : Db) (orderPk : ℕ) (lines : List ResolvedOrderLine) : Result Db :=
  lockedOrder db orderPk requireDraftForEdit (fun order => do
    let db := db.deleteLines ((db.orderLines order.pk).map OrderLine.pk)
    createOrderLines db order lines)

/-- Reject discarding an order that still owns reservations. -/
def requireOrderWithoutReservationsBeforeDiscard : Preparation := fun db order => do
  require (hasReservationsForOrder db order.pk = false) (.invalidOrderOperation
    ("Cannot discard draft order " ++ toString order.pk ++ "; it has allocations"))
  return db

/-- Prepare and delete an unplaced draft order, with its lines. -/
def discardDraftOrder (db : Db) (orderPk : ℕ) (preparation : Preparation) : Result Db :=
  lockedOrder db orderPk requireDraftForDiscard (fun order => do
    let db ← preparation db order
    let db := db.deleteLines ((db.orderLines order.pk).map OrderLine.pk)
    return { db with orders := db.orders.delete (fun o => o.pk = order.pk) })

namespace Business

/-! ### Catalog lookups -/

def getCatalogProduct (rt : Runtime) (db : Db) (productId : ℕ) : Result CatalogProduct := do
  let catalog ← listBusinessCatalogProducts rt db
  orRaise (catalog.find? (fun row => row.product.pk = productId))
    (.invalidOrderOperation "product is not available in the business catalog")

def getCatalogOffer (catalogProduct : CatalogProduct) (commercialPriceId : ℕ) :
    Result CatalogOffer :=
  orRaise (catalogProduct.offers.find? (fun offer => offer.commercialPriceId = commercialPriceId))
    (.invalidOrderOperation "business offer is not currently available")

def getStandardOffer (catalogProduct : CatalogProduct) : Result CatalogOffer :=
  orRaise (catalogProduct.offers.find? (fun offer => offer.kind = .standard))
    (.invalidOrderOperation "standard business offer is not currently available")

/-- The catalog offer of a line's selection; a selection without a price is of the standard
    offer. -/
def getExplicitOfferForOrderLine (rt : Runtime) (db : Db) (line : OrderLine)
    (selection : Option ℕ) : Result CatalogOffer := do
  let catalogProduct ← getCatalogProduct rt db line.productId
  match selection with
  | none => getStandardOffer catalogProduct
  | some commercialPriceId => getCatalogOffer catalogProduct commercialPriceId

/-! ### Lines of a draft -/

/-- The explicit line of an offer. -/
def findLineForOffer (db : Db) (order : Order) (product : Product) (commercialPriceId : ℕ) :
    Option OrderLine :=
  (db.orderLines order.pk).find? (fun l =>
    l.productId = product.pk && l.businessOfferSelection = some (some commercialPriceId))

/-- The legacy line of a product. -/
def findLegacyLine (db : Db) (orderPk : ℕ) (productId : ℕ) : Option OrderLine :=
  (db.orderLines orderPk).find? (fun l =>
    l.productId = productId && l.businessOfferSelection.isNone)

/-- The units of some lines. -/
def lineQuantity (lines : List OrderLine) : ℤ := (lines.map (fun l => (l.quantityInUnits : ℤ))).sum

/-- `BusinessOfferSelection.objects.create(...)`. -/
def selectBusinessOffer (commercialPriceId : ℕ) : Edit OrderLine where
  apply l := { l with businessOfferSelection := some (some commercialPriceId) }
  pk_apply _ := rfl

/-! ### Adding -/

/-- Add one channel-approved catalog selection to a business draft. -/
def addCatalogOfferToDraftOrder (rt : Runtime) (db : Db) (customer : ℕ) (product : Product)
    (commercialPriceId : ℕ) (quantity : ℤ) : Result (Db × Order) := do
  require (0 < quantity) (.invalidOrderOperation "quantity must be positive")
  let catalogProduct ← getCatalogProduct rt db product.pk
  let offer ← getCatalogOffer catalogProduct commercialPriceId
  let (db, order) ← getOrCreateCustomerDraftOrder rt db customer
  let existingLine := findLineForOffer db order product commercialPriceId
  let requestedOfferQuantity := lineQuantity existingLine.toList + quantity
  require (requestedOfferQuantity ≤ offer.availableUnits) (.invalidOrderOperation
    ("only " ++ toString offer.availableUnits
      ++ " units are currently available for this offer"))
  let currentProductQuantity :=
    lineQuantity ((db.orderLines order.pk).filter (fun l => l.productId = product.pk))
  requireUsualQuantity (currentProductQuantity + quantity)
  match existingLine with
  | some line => do
      let db ← setDraftOrderLineQuantity db order.pk line.pk requestedOfferQuantity
      return (db, order)
  | none => do
      let commercialOffer ← db.getCommercialPrice offer.commercialPriceId
      let linePk := db.lines.next
      let db ← addDraftOrderLine db order.pk ⟨product, quantity, commercialOffer, offer.price⟩
      return ({ db with
        lines := db.lines.modify (fun l => l.pk = linePk)
          (selectBusinessOffer offer.commercialPriceId) }, order)

/-- The product's persistent standard BUSINESS offer. -/
def resolveStandardBusinessOffer (db : Db) (product : Product) : Result CommercialPrice := do
  let offer ← orRaise (standardBusinessOffer db product.pk) (.runtimeError
    ("business ordering invariant violated: missing standard BUSINESS offer for "
      ++ product.displayName))
  require (offer.enabled = true)
    (.invalidOrderOperation "product is not available for business ordering")
  return offer

/-- Ordinary units of a product that may be asked for. -/
def requireOrderable (rt : Runtime) (db : Db) (productId : ℕ) (quantity : ℤ) : Result Unit := do
  let availableUnits := (orderableQuantityByProductId rt db).getD productId 0
  require (quantity ≤ availableUnits) (.invalidOrderOperation
    ("only " ++ toString availableUnits ++ " units are currently available"))

/-- Add ordinary unpriced units of one product to a business draft. -/
def addProductToDraftOrder (rt : Runtime) (db : Db) (customer : ℕ) (product : Product)
    (quantity : ℤ) : Result (Db × Order) := do
  require (0 < quantity) (.invalidOrderOperation "quantity must be positive")
  require (product.active = true)
    (.invalidOrderOperation "product is not available for business ordering")
  let standardOffer ← resolveStandardBusinessOffer db product
  let (db, order) ← getOrCreateCustomerDraftOrder rt db customer
  let existingLine := findLegacyLine db order.pk product.pk
  let requestedQuantity := lineQuantity existingLine.toList + quantity
  requireUsualQuantity requestedQuantity
  requireOrderable rt db product.pk requestedQuantity
  match existingLine with
  | some line => do
      let db ← setDraftOrderLineQuantity db order.pk line.pk requestedQuantity
      return (db, order)
  | none => do
      let db ← addDraftOrderLine db order.pk ⟨product, quantity, standardOffer, none⟩
      return (db, order)

/-! ### Changing and removing -/

/-- The units that may be set on a line. -/
def requireAvailable (rt : Runtime) (db : Db) (line : OrderLine) (quantity : ℤ) : Result Unit :=
  match line.businessOfferSelection with
  | none => requireOrderable rt db line.productId quantity
  | some selection => do
      let offer ← getExplicitOfferForOrderLine rt db line selection
      require (quantity ≤ offer.availableUnits) (.invalidOrderOperation
        ("only " ++ toString offer.availableUnits
          ++ " units are currently available for this offer"))

/-- Set quantity for one durable business draft line. -/
def setDraftLineQuantity (rt : Runtime) (db : Db) (orderPk orderLineId : ℕ) (quantity : ℤ) :
    Result Db := do
  require (0 < quantity) (.invalidOrderOperation "quantity must be positive")
  requireBusinessOrder db orderPk
  let order ← db.getOrder orderPk
  let line ← findOrderLine db order orderLineId
  let productTotalWithoutLine := lineQuantity ((db.orderLines order.pk).filter
    (fun l => l.productId = line.productId && l.pk ≠ line.pk))
  requireUsualQuantity (productTotalWithoutLine + quantity)
  requireAvailable rt db line quantity
  setDraftOrderLineQuantity db order.pk line.pk quantity

/-- Remove one durable business draft line. -/
def removeDraftLine (db : Db) (orderPk orderLineId : ℕ) : Result Db := do
  requireBusinessOrder db orderPk
  removeDraftOrderLine db orderPk orderLineId

/-- The legacy line of a product, on an order of the business portal. -/
def getLegacyLine (db : Db) (orderPk productId : ℕ) : Result OrderLine := do
  requireBusinessOrder db orderPk
  orRaise (findLegacyLine db orderPk productId)
    (.invalidOrderOperation "product is not part of the draft order")

/-- Set quantity on one legacy product-only business draft line. -/
def setDraftProductQuantity (rt : Runtime) (db : Db) (orderPk productId : ℕ) (quantity : ℤ) :
    Result Db := do
  let line ← getLegacyLine db orderPk productId
  setDraftLineQuantity rt db orderPk line.pk quantity

/-- Remove one legacy product-only business draft line. -/
def removeProductFromDraftOrder (db : Db) (orderPk productId : ℕ) : Result Db := do
  let line ← getLegacyLine db orderPk productId
  removeDraftLine db orderPk line.pk

/-- Replace ordinary product-only lines of a business draft. -/
def replaceDraftOrderLines (db : Db) (orderPk : ℕ) (lines : List OrderLineInput) : Result Db := do
  let resolvedLines ← resolveBusinessOrderLines db lines
  SwedeSweets.replaceDraftOrderLines db orderPk resolvedLines

/-- Discard a business draft that owns no reservations. -/
def discardDraftOrder (db : Db) (orderPk : ℕ) : Result Db :=
  SwedeSweets.discardDraftOrder db orderPk requireOrderWithoutReservationsBeforeDiscard

/-! ### Repeating an order -/

inductive RepeatOrderSkipReason where
  | productUnavailable | offerUnavailable | quantityUnavailable | couldNotAdd
  deriving DecidableEq, Repr

structure RepeatOrderSkippedLine where
  productId : ℕ
  quantity : ℕ
  reason : RepeatOrderSkipReason
  deriving DecidableEq, Repr

structure RepeatOrderResult where
  draftOrder : Option ℕ
  addedCount : ℕ
  skipped : List RepeatOrderSkippedLine

def requireRepeatableOrder (customer : ℕ) (sourceOrder : Order) : Result Unit := do
  require (sourceOrder.channel = .business)
    (.invalidOrderOperation "order is not a business order")
  require (sourceOrder.customerId = some customer)
    (.invalidOrderOperation "order does not belong to the current customer")
  require (sourceOrder.status ≠ .draft)
    (.invalidOrderOperation "draft orders cannot be repeated")

/-- The catalog offer a line is repeated with; a line without an offer of its own is repeated
    with the standard offer. -/
def resolveRepeatOffer (line : OrderLine) (catalogProduct : CatalogProduct) : Option CatalogOffer :=
  match line.businessOfferSelection with
  | some (some commercialPriceId) =>
      catalogProduct.offers.find? (fun offer => offer.commercialPriceId = commercialPriceId)
  | _ => catalogProduct.offers.find? (fun offer => offer.kind = .standard)

def RepeatOrderResult.skip (result : RepeatOrderResult) (line : OrderLine)
    (reason : RepeatOrderSkipReason) : RepeatOrderResult :=
  { result with skipped := result.skipped ++ [⟨line.productId, line.quantityInUnits, reason⟩] }

/-- The offer a source line can be repeated with, or why it cannot. -/
def repeatableOffer (catalog : List CatalogProduct) (line : OrderLine) :
    Except RepeatOrderSkipReason CatalogOffer := do
  let catalogProduct ← orRaise (catalog.find? (fun row => row.product.pk = line.productId))
    .productUnavailable
  let offer ← orRaise (resolveRepeatOffer line catalogProduct) .offerUnavailable
  require ((line.quantityInUnits : ℤ) ≤ offer.availableUnits) .quantityUnavailable
  return offer

/-- Copy one line; whatever the shared services refuse is skipped. -/
def repeatLine (rt : Runtime) (customer : ℕ) (catalog : List CatalogProduct)
    (state : Db × RepeatOrderResult) (line : OrderLine) : Result (Db × RepeatOrderResult) :=
  let (db, result) := state
  match repeatableOffer catalog line with
  | .error reason => return (db, result.skip line reason)
  | .ok offer => do
      let product ← db.getProduct line.productId
      match addCatalogOfferToDraftOrder rt db customer product offer.commercialPriceId
          line.quantityInUnits with
      | .ok (db, order) =>
          return (db, { result with
            draftOrder := some order.pk, addedCount := result.addedCount + 1 })
      | .error (.invalidOrderOperation _) => return (db, result.skip line .couldNotAdd)
      | .error e => throw e

/-- Copy the lines one after the other; each addition is a transaction of its own, so a raise
    leaves the earlier ones in place. -/
def repeatLines (rt : Runtime) (customer : ℕ) (catalog : List CatalogProduct) :
    List OrderLine → Db × RepeatOrderResult → Db × Result RepeatOrderResult
  | [], (db, result) => (db, .ok result)
  | line :: lines, state =>
      match repeatLine rt customer catalog state line with
      | .ok state => repeatLines rt customer catalog lines state
      | .error e => (state.1, .error e)

/-- Copy currently valid selections from one historical order into a draft. -/
def repeatOrderIntoDraft (rt : Runtime) (db : Db) (customer : ℕ) (sourceOrder : Order) :
    Db × Result RepeatOrderResult :=
  match (do
      requireRepeatableOrder customer sourceOrder
      listBusinessCatalogProducts rt db : Result (List CatalogProduct)) with
  | .error e => (db, .error e)
  | .ok catalog =>
      repeatLines rt customer catalog (db.orderLines sourceOrder.pk) (db, ⟨none, 0, []⟩)

end Business

end SwedeSweets
