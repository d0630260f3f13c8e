import SwedeSweets.Database

namespace SwedeSweets

open Relational Fallible

/-!
# The order history export

`buildOrderHistoryExport` describes every order in terms of the business: the email of the
customer, the SKU of a product and the id of a batch stand for the rows.  Decimals stay cents
and timestamps stay ticks; the text they are rendered as says no less and no more.

The offer of a line (`offerRef`) is read from the selections that hang on it.
-/

structure CustomerRef where
  email : String
  name : String
  deriving DecidableEq, Repr

structure BuyerRecord where
  name : String
  email : String
  phoneNumber : String
  country : String
  postalCode : String
  city : String
  addressLine : String
  deriving DecidableEq, Repr

structure ProductRef where
  sku : String
  internalNumber : Option ℕ
  deriving DecidableEq, Repr

structure OfferRef where
  channel : Channel
  product : ProductRef
  batchId : Option String
  deriving DecidableEq, Repr

structure LineRecord where
  sourceLineId : ℕ
  product : ProductRef
  quantity : ℕ
  unit : OrderUnit
  quantityInUnits : ℕ
  unitPriceSnapshot : Option Cents
  lineTotal : Option Cents
  offer : Option OfferRef
  deriving DecidableEq, Repr

structure ActorsRecord where
  edited : Option String
  placed : Option String
  packed : Option String
  delivered : Option String
  cancelled : Option String
  deriving DecidableEq, Repr

structure OrderRecord where
  sourceOrderId : ℕ
  channel : Channel
  currency : Currency
  status : OrderStatus
  customer : Option CustomerRef
  buyer : BuyerRecord
  createdAt : Time
  editedAt : Option Time
  placedAt : Option Time
  packedAt : Option Time
  deliveredAt : Option Time
  cancelledAt : Option Time
  actors : ActorsRecord
  cancelReason : String
  cancelNote : String
  total : Option Cents
  lines : List LineRecord
  deriving DecidableEq, Repr

/-- Rows counted in the tables themselves. -/
structure DatabaseCounts where
  customers : ℕ
  products : ℕ
  orders : ℕ
  orderLines : ℕ
  deriving DecidableEq, Repr

structure ExportCounts where
  orders : ℕ
  orderLines : ℕ
  ordersByStatus : List (OrderStatus × ℕ)
  ordersByChannel : List (Channel × ℕ)
  orderLinesWithExplicitOffer : ℕ
  database : DatabaseCounts
  deriving DecidableEq, Repr

structure OrderHistoryExport where
  format : String
  formatVersion : ℕ
  exportedAt : Time
  counts : ExportCounts
  orders : List OrderRecord
  deriving DecidableEq, Repr

/-- What the export reads and no order service writes: the customers, the usernames, and the
    buyer snapshot of an order. -/
structure Directory where
  customer : ℕ → CustomerRef
  customers : ℕ
  username : ℕ → String
  buyer : ℕ → BuyerRecord

def exportFormat : String := "swedesweets-order-history"

def exportFormatVersion : ℕ := 1

def productRef (p : Product) : ProductRef := ⟨p.sku, p.internalNumber⟩

/-- The reference that stands for a commercial price. -/
def priceRef (db : Db) (price : CommercialPrice) : Result OfferRef := do
  let product ← db.getProduct price.productId
  match price.batchId with
  | none => return ⟨price.channel, productRef product, none⟩
  | some batch =>
      let batch ← db.getBatch batch
      return ⟨price.channel, productRef product, some batch.batchId⟩

/-- Reference to the explicit commercial offer recorded for a line. -/
def offerRef (db : Db) (line : OrderLine) : Result (Option OfferRef) := do
  let businessPrice := line.businessOfferSelection.join
  let retailPrice := line.retailOfferSelection
  require (¬(businessPrice.isSome = true ∧ retailPrice.isSome = true)) (.commandError
    ("Order line " ++ toString line.pk
      ++ " has both a business and a retail offer selection; refusing to guess."))
  match businessPrice.or retailPrice with
  | none => return none
  | some price =>
      let price ← db.getCommercialPrice price
      return some (← priceRef db price)

/-- Every service writes the units of a line as its quantity, in stock units. -/
def lineRecord (db : Db) (line : OrderLine) : Result LineRecord := do
  let product ← db.getProduct line.productId
  let offer ← offerRef db line
  return {
    sourceLineId := line.pk
    product := productRef product
    quantity := line.quantityInUnits
    unit := .stock
    quantityInUnits := line.quantityInUnits
    unitPriceSnapshot := line.unitPriceSnapshot
    lineTotal := line.lineTotal
    offer := offer }

def orderRecord (dir : Directory) (db : Db) (order : Order) : Result OrderRecord := do
  let lines ← (db.orderLines order.pk).mapM (lineRecord db)
  return {
    sourceOrderId := order.pk
    channel := order.channel
    currency := order.currency
    status := order.status
    customer := order.customerId.map dir.customer
    buyer := dir.buyer order.pk
    createdAt := order.createdAt
    editedAt := order.editedAt
    placedAt := order.placedAt
    packedAt := order.packedAt
    deliveredAt := order.deliveredAt
    cancelledAt := order.cancelledAt
    actors := {
      edited := order.editedBy.map dir.username
      placed := order.placedBy.map dir.username
      packed := order.packedBy.map dir.username
      delivered := order.deliveredBy.map dir.username
      cancelled := order.cancelledBy.map dir.username }
    cancelReason := order.cancelReason
    cancelNote := order.cancelNote
    total := orderTotal (db.orderLines order.pk)
    lines := lines }

/-- `dict(sorted(Counter(values).items()))`, for the values in the order of their texts. -/
def sortedCounter {α : Type} [DecidableEq α] (keys values : List α) : List (α × ℕ) :=
  (keys.filter (· ∈ values)).map (fun k => (k, values.count k))

/-- The orders in `id` order, each with its lines in `id` order. -/
def buildOrderHistoryExport (dir : Directory) (exportedAt : Time) (db : Db) :
    Result OrderHistoryExport := do
  let exportedOrders ← db.orders.rows.mapM (orderRecord dir db)
  let lineRecords := exportedOrders.flatMap OrderRecord.lines
  return {
    format := exportFormat
    formatVersion := exportFormatVersion
    exportedAt := exportedAt
    counts := {
      orders := exportedOrders.length
      orderLines := lineRecords.length
      ordersByStatus := sortedCounter [.cancelled, .delivered, .draft, .packed, .placed]
        (exportedOrders.map OrderRecord.status)
      ordersByChannel := sortedCounter [.business, .retail]
        (exportedOrders.map OrderRecord.channel)
      orderLinesWithExplicitOffer := lineRecords.countP (fun line => line.offer ≠ none)
      database := {
        customers := dir.customers
        products := db.products.rows.length
        orders := db.orders.rows.length
        orderLines := db.lines.rows.length } }
    orders := exportedOrders }

end SwedeSweets
