import SwedeSweets.Database

namespace SwedeSweets

open Relational Fallible

/-!
# Shared order services

Persistence and lifecycle mutations for already resolved orders.  Every mutation runs
against a freshly locked order row behind its guard (`lockedOrder`); the prerequisites of a
mutation are handed in as a `preparation`.
-/

/-- Order line resolved by the calling sales channel. -/
structure ResolvedOrderLine where
  product : Product
  quantityInUnits : ℤ
  commercialOffer : CommercialPrice
  unitPriceSnapshot : Option Cents
  deriving DecidableEq

/-- Resolved data required to persist a new draft order. -/
structure OrderDraft where
  channel : Channel
  currency : Currency
  customer : Option ℕ
  lines : List ResolvedOrderLine

/-- A policy run before a mutation. -/
abbrev Preparation := Db → Order → Result Db

/-! ### Guards -/

def OrderStatus.value : OrderStatus → String
  | .draft => "draft"
  | .placed => "placed"
  | .packed => "packed"
  | .delivered => "delivered"
  | .cancelled => "cancelled"

/-- A guard that lets one status pass. -/
def requireStatus (status : OrderStatus) (message : String) (order : Order) : Result Unit :=
  require (order.status = status) (.invalidOrderOperation (message ++ order.status.value))

def requireDraftForEdit : Order → Result Unit :=
  requireStatus .draft "Only draft orders can be edited; current status is "

def requireDraftForPlacement : Order → Result Unit :=
  requireStatus .draft "Only draft orders can be placed; current status is "

def requirePlacedForEdit : Order → Result Unit :=
  requireStatus .placed "Only placed orders can be edited; current status is "

def requirePlacedForPacking (order : Order) : Result Unit :=
  requireStatus .placed
    ("Cannot pack order " ++ toString order.pk ++ "; current status is ") order

def requireCancellable (order : Order) : Result Unit :=
  require order.canBeCancelled (.invalidOrderOperation
    ("Cannot cancel order " ++ toString order.pk ++ "; current status is "
      ++ order.status.value))

/-- Run an order mutation against a freshly locked row. -/
def lockedOrder {α : Type} (db : Db) (orderPk : ℕ) (guard : Order → Result Unit)
    (function : Order → Result α) : Result α := do
  let order ← db.getOrder orderPk
  guard order
  function order

/-- `order.save(update_fields=...)` on a locked row. -/
def Db.saveOrder (db : Db) (order : Order) : Db := { db with orders := db.orders.put order }

/-! ### Order lines -/

def requirePositiveQuantity (quantityInUnits : ℤ) : Result Unit :=
  require (0 < quantityInUnits)
    (.invalidOrderOperation "order line quantity must be positive")

def Channel.value : Channel → String
  | .business => "business"
  | .retail => "retail"

/-- The offer of a line belongs to the line's product and the order's channel. -/
def validateCommercialOffer (order : Order) (line : ResolvedOrderLine) : Result ℕ := do
  let offer := line.commercialOffer
  require (offer.productId = line.product.pk) (.invalidOrderOperation
    ("commercial offer " ++ toString offer.pk ++ " belongs to product "
      ++ toString offer.productId ++ ", not " ++ toString line.product.pk))
  require (offer.channel = order.channel) (.invalidOrderOperation
    ("commercial offer " ++ toString offer.pk ++ " is a " ++ offer.channel.value
      ++ " offer; order is " ++ order.channel.value))
  return offer.pk

/-- One order line about to be inserted. -/
structure NewOrderLine where
  orderId : ℕ
  productId : ℕ
  quantityInUnits : ℕ
  unitPriceSnapshot : Option Cents
  commercialOfferId : ℕ
  retailOfferSelection : Option ℕ
  quantity_pos : 0 < quantityInUnits
  price_pos : ∀ c, unitPriceSnapshot = some c → 0 < c

def NewOrderLine.row (x : NewOrderLine) : NewRow OrderLine where
  make pk :=
    { pk := pk
      orderId := x.orderId
      productId := x.productId
      quantityInUnits := x.quantityInUnits
      unitPriceSnapshot := x.unitPriceSnapshot
      commercialOfferId := x.commercialOfferId
      retailOfferSelection := x.retailOfferSelection
      businessOfferSelection := none
      quantity_pos := x.quantity_pos
      price_pos := x.price_pos }
  pk_make _ := rfl

/-- The digits of a quantity before its point. -/
def quantityDigits : ℕ := 9

/-- The row for a resolved line; the table admits positive quantities and prices only, and
    quantities that fit their column. -/
def newOrderLine (order : Order) (line : ResolvedOrderLine) : Result NewOrderLine := do
  requireNumeric quantityDigits line.quantityInUnits
  if hq : 0 < line.quantityInUnits.toNat then
    if hp : ∀ c ∈ line.unitPriceSnapshot, 0 < c then
      return ⟨order.pk, line.product.pk, line.quantityInUnits.toNat, line.unitPriceSnapshot,
        line.commercialOffer.pk, none, hq, fun c hc => hp c hc⟩
    else throw (.integrityError "orderline_unit_price_positive_or_null")
  else throw (.integrityError "orderline_quantity_in_units_gt_0")

/-- The line with another quantity; the table admits positive quantities that fit their column. -/
def OrderLine.resize (line : OrderLine) (quantityInUnits : ℤ) : Result OrderLine := do
  requireNumeric quantityDigits quantityInUnits
  if h : 0 < quantityInUnits.toNat then
    return { line with quantityInUnits := quantityInUnits.toNat, quantity_pos := h }
  else throw (.integrityError "orderline_quantity_in_units_gt_0")

/-- Validate every line, then insert them all. -/
def createOrderLines (db : Db) (order : Order) (lines : List ResolvedOrderLine) : Result Db := do
  let _ ← lines.mapM (validateCommercialOffer order)
  let rows ← lines.mapM (newOrderLine order)
  return { db with lines := db.lines.insertAll (rows.map NewOrderLine.row) }

/-- Delete lines together with the allocations that hang on them. -/
def Db.deleteLines (db : Db) (pks : List ℕ) : Db :=
  { db with
    lines := db.lines.delete (fun l => pks.contains l.pk)
    allocations := db.allocations.delete (fun a => pks.contains a.orderLineId) }

/-! ### Buyers -/

/-- Buyer data required to snapshot who an order is for. -/
structure BuyerInput where
  name : String
  email : String
  phoneNumber : String
  country : String
  city : String
  addressLine : String
  postalCode : String
  deriving DecidableEq, Repr

def maxCustomerNameLength : ℕ := 120
def maxBuyerEmailLength : ℕ := 254
def maxCustomerPhoneLength : ℕ := 40
def maxCustomerCountryLength : ℕ := 80
def maxBuyerPostalCodeLength : ℕ := 20
def maxCustomerCityLength : ℕ := 120
def maxCustomerAddressLineLength : ℕ := 180

/-- `order.snapshot_buyer(buyer=...)`, as far as `order.save()` can tell: the snapshot columns
    must hold the data.  No service reads a snapshot back. -/
def snapshotBuyer (buyer : BuyerInput) : Result Unit := do
  requireFits maxCustomerNameLength buyer.name
  requireFits maxBuyerEmailLength buyer.email
  requireFits maxCustomerPhoneLength buyer.phoneNumber
  requireFits maxCustomerCountryLength buyer.country
  requireFits maxBuyerPostalCodeLength buyer.postalCode
  requireFits maxCustomerCityLength buyer.city
  requireFits maxCustomerAddressLineLength buyer.addressLine

/-! ### Creating -/

/-- The row of a new order. -/
def newOrder (rt : Runtime) (channel : Channel) (currency : Currency) (customer : Option ℕ) :
    NewRow Order where
  make pk :=
    { pk := pk
      channel := channel
      currency := currency
      customerId := customer
      status := .draft
      createdAt := rt.now
      editedAt := none
      editedBy := none
      placedAt := none
      placedBy := none
      packedAt := none
      packedBy := none
      deliveredAt := none
      deliveredBy := none
      cancelledAt := none
      cancelledBy := none
      cancelReason := ""
      cancelNote := "" }
  pk_make _ := rfl

/-- A business draft of the customer. -/
def isBusinessDraftOf (customer : ℕ) (o : Order) : Bool :=
  o.channel = .business && o.customerId = some customer && o.status = .draft

/-- `order.save()` on a new DRAFT order, behind the constraints of the table. -/
def insertOrder (rt : Runtime) (db : Db) (channel : Channel) (currency : Currency)
    (customer : Option ℕ) : Result (Db × Order) := do
  if channel = .business then
    let customer ← orRaise customer (.integrityError "business_order_requires_customer")
    require (db.orders.select (isBusinessDraftOf customer) = [])
      (.integrityError "unique_business_draft_order_per_customer")
  let row := newOrder rt channel currency customer
  return ({ db with orders := db.orders.insert row }, row.make db.orders.next)

/-- Persist an already resolved order draft. -/
def createDraftOrder (rt : Runtime) (db : Db) (draft : OrderDraft) : Result (Db × Order) := do
  require (draft.lines ≠ []) (.invalidOrderOperation "order must contain at least one line")
  let (db, order) ← insertOrder rt db draft.channel draft.currency draft.customer
  let db ← createOrderLines db order draft.lines
  return (db, order)

/-! ### Editing a draft -/

/-- Persist one already-resolved line on a mutable draft order. -/
def addDraftOrderLine (db : Db) (orderPk : ℕ) (line : ResolvedOrderLine) : Result Db :=
  lockedOrder db orderPk requireDraftForEdit (fun order => do
    requirePositiveQuantity line.quantityInUnits
    let _ ← validateCommercialOffer order line
    let row ← newOrderLine order line
    return { db with lines := db.lines.insert row.row })

/-- `order.lines.filter(pk=order_line_id).first()`. -/
def findOrderLine (db : Db) (order : Order) (orderLineId : ℕ) : Result OrderLine :=
  orRaise ((db.orderLines order.pk).find? (fun l => l.pk = orderLineId))
    (.invalidOrderOperation "order line does not belong to this draft order")

/-- Set an already-resolved quantity on one draft order line. -/
def setDraftOrderLineQuantity (db : Db) (orderPk orderLineId : ℕ) (quantityInUnits : ℤ) :
    Result Db :=
  lockedOrder db orderPk requireDraftForEdit (fun order => do
    requirePositiveQuantity quantityInUnits
    let line ← findOrderLine db order orderLineId
    let line ← line.resize quantityInUnits
    return { db with lines := db.lines.put line })

/-- Remove one line from a draft order. -/
def removeDraftOrderLine (db : Db) (orderPk orderLineId : ℕ) : Result Db :=
  lockedOrder db orderPk requireDraftForEdit (fun order => do
    let line ← findOrderLine db order orderLineId
    return db.deleteLines [line.pk])

/-! ### Lifecycle -/

/-- Prepare a draft order and move it to PLACED. -/
def placeOrder (rt : Runtime) (db : Db) (orderPk : ℕ) (preparation : Preparation)
    (user : Option ℕ) : Result Db :=
  lockedOrder db orderPk requireDraftForPlacement (fun order => do
    let db ← preparation db order
    let order ← order.markAsPlaced rt user
    return db.saveOrder order)

/-- Enter an incoming line under its offer. -/
def addIncoming (order : Order) (seen : List (ℕ × ResolvedOrderLine)) (line : ResolvedOrderLine) :
    Result (List (ℕ × ResolvedOrderLine)) := do
  let offerId ← validateCommercialOffer order line
  require (offerId ∉ seen.map Prod.fst) (.invalidOrderOperation
    ("duplicate commercial offer " ++ toString offerId ++ " in order update"))
  return seen ++ [(offerId, line)]

/-- The incoming lines by offer; an offer may occur once. -/
def incomingByOfferId (order : Order) (lines : List ResolvedOrderLine) :
    Result (List (ℕ × ResolvedOrderLine)) :=
  lines.foldlM (addIncoming order) []

/-- Enter an existing line under its offer. -/
def addExisting (seen : List (ℕ × OrderLine)) (line : OrderLine) :
    Result (List (ℕ × OrderLine)) := do
  require (line.commercialOfferId ∉ seen.map Prod.fst) (.invalidOrderOperation
    ("duplicate commercial offer " ++ toString line.commercialOfferId ++ " on existing order"))
  return seen ++ [(line.commercialOfferId, line)]

/-- The existing lines by offer; an offer may occur once. -/
def existingByOfferId (lines : List OrderLine) : Result (List (ℕ × OrderLine)) :=
  lines.foldlM addExisting []

/-- Diff the lines of a placed order: keep, resize, remove and add them by offer. -/
def replaceLines (db : Db) (order : Order) (incoming : List (ℕ × ResolvedOrderLine))
    (existing : List (ℕ × OrderLine)) : Result Db := do
  let retainedLines ← (incoming.filterMap (fun e =>
    (existing.lookup e.1).map (fun line => (line, e.2.quantityInUnits)))).mapM
      (fun e => e.1.resize e.2)
  let newLines := (incoming.filter (fun e => (existing.lookup e.1).isNone)).map Prod.snd
  let removedLineIds := (existing.filter (fun e => (incoming.lookup e.1).isNone)).map
    (fun e => e.2.pk)
  let db := { db with lines := retainedLines.foldl Table.put db.lines }
  let db := db.deleteLines removedLineIds
  createOrderLines db order newLines

/-- Diff resolved lines by commercial offer and rebuild prerequisites. -/
def updatePlacedOrder (rt : Runtime) (db : Db) (orderPk : ℕ) (lines : List ResolvedOrderLine)
    (beforeReplacement preparation : Preparation) (user : Option ℕ) : Result Db :=
  lockedOrder db orderPk requirePlacedForEdit (fun order => do
    require (lines ≠ []) (.invalidOrderOperation "order must contain at least one line")
    let incoming ← incomingByOfferId order lines
    let existing ← existingByOfferId (db.orderLines order.pk)
    let db ← beforeReplacement db order
    let db ← replaceLines db order incoming existing
    let db ← preparation db order
    return db.saveOrder (order.markAsEdited rt user))

/-- Prepare a placed order and move it to PACKED. -/
def packOrder (rt : Runtime) (db : Db) (orderPk : ℕ) (preparation : Preparation)
    (user : Option ℕ) : Result Db :=
  lockedOrder db orderPk requirePlacedForPacking (fun order => do
    let db ← preparation db order
    let order ← order.markAsPacked rt user
    return db.saveOrder order)

/-- Prepare an order and move it to CANCELLED. -/
def cancelOrder (rt : Runtime) (db : Db) (orderPk : ℕ) (preparation : Preparation)
    (user : Option ℕ) (reason note : String) : Result Db :=
  lockedOrder db orderPk requireCancellable (fun order => do
    let db ← preparation db order
    let order ← order.cancel rt user reason note
    return db.saveOrder order)

/-- Move an order to DELIVERED. -/
def deliverOrder (rt : Runtime) (db : Db) (orderPk : ℕ) (user : Option ℕ) : Result Db :=
  lockedOrder db orderPk (fun _ => .ok ()) (fun order => do
    let order ← order.markAsDelivered rt user
    return db.saveOrder order)

end SwedeSweets
