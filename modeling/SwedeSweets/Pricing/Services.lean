import SwedeSweets.Pricing.Pools

namespace SwedeSweets

open Relational Fallible

/-!
# Pricing services

Offers and their amounts, as the operations portal edits them.

* `createCommercialPrice`, `setPriceAmount`, `removePriceAmount`, `setCommercialPriceReason`,
  `setCommercialPriceEnabled` and `ensureStandardOffer` are the services of one offer;
  `editCommercialPrice` is what those that lock an offer share.
* `updateProductStandardPricing` and `updateBatchSpecialPricing` bring the offers of a product,
  or of one batch, to what the form of the portal says, one channel after the other.
-/

/-! ### Amounts -/

/-- A finite `decimal.Decimal`. -/
structure Decimal where
  coefficient : ℤ
  exponent : ℤ
  deriving DecidableEq, Repr

def Decimal.value (d : Decimal) : ℚ := d.coefficient * 10 ^ d.exponent

/-- What a `numeric(10, 2)` column holds of a positive number, in cents: the nearest cent, the
    upper one of two. -/
def Decimal.column (d : Decimal) : Result Cents := do
  require (⌊100 * d.value + 1 / 2⌋ < 10 ^ 10) (.dataError "numeric field overflow")
  return ⌊100 * d.value + 1 / 2⌋.toNat

/-- The number is written with two decimals at most. -/
def Decimal.twoPlaces (d : Decimal) : Bool := -2 ≤ d.exponent

/-- `_validate_amounts`. -/
def validateAmounts (price : Decimal) (originalPrice : Option Decimal) : Result Unit := do
  require (0 < price.value) (.invalidCommercialPrice "price must be greater than zero")
  require (∀ original ∈ originalPrice, 0 < original.value)
    (.invalidCommercialPrice "original price must be greater than zero")
  require (∀ original ∈ originalPrice, price.value ≤ original.value)
    (.invalidCommercialPrice "original price cannot be below current price")

/-- The order in which the amounts of an offer are read. -/
def Currency.rank : Currency → ℕ
  | .eur => 0
  | .sek => 1

namespace CommercialPrice

/-- The offer with an amount put in the place of its currency. -/
def withAmount (o : CommercialPrice) (a : PriceAmount) : CommercialPrice :=
  { o with amounts := o.amounts.filter (fun x => x.currency.rank < a.currency.rank)
      ++ a :: o.amounts.filter (fun x => a.currency.rank < x.currency.rank) }

def withoutAmount (o : CommercialPrice) (currency : Currency) : CommercialPrice :=
  { o with amounts := o.amounts.filter (fun x => x.currency ≠ currency) }

/-! ### Validation of an offer -/

/-- The choices of the reason column, and the blank. -/
def reasons : List String := ["", "short_dated", "damaged_package", "promotion", "other"]

/-- What an offer is for: a product, or one batch of it, in a channel. -/
structure Scope where
  productId : ℕ
  batchId : Option ℕ
  channel : Channel
  deriving DecidableEq

def scope (o : CommercialPrice) : Scope := ⟨o.productId, o.batchId, o.channel⟩

/-- The offer is for the scope.  The unique constraints admit one offer for each scope, and do not
    ask for the product of a batch. -/
def isFor (s : Scope) (o : CommercialPrice) : Bool :=
  o.channel = s.channel &&
    match s.batchId with
    | none => o.productId = s.productId && o.batchId = none
    | some batchPk => o.batchId = some batchPk

/-- `full_clean`: the choices and the foreign keys, `clean`, and the unique constraints against
    the other rows. -/
def fullClean (db : Db) (o : CommercialPrice) : Bool :=
  (db.products.get? o.productId).isSome && reasons.contains o.reason
    && o.batchId.all (fun batchPk =>
      (db.batches.get? batchPk).any (fun b => b.productId = o.productId))
    && db.commercialPrices.rows.all (fun x => x.pk = o.pk || !x.isFor o.scope)

end CommercialPrice

/-- The product-wide pricing definition for one sales channel, enabled or not. -/
def getProductCommercialPrice (db : Db) (productPk : ℕ) (channel : Channel) :
    Option CommercialPrice :=
  db.commercialPrices.rows.find? (fun o =>
    o.productId = productPk && o.batchId = none && o.channel = channel)

/-- The batch-specific pricing definition for one sales channel, enabled or not. -/
def getBatchCommercialPrice (db : Db) (batchPk : ℕ) (channel : Channel) : Option CommercialPrice :=
  db.commercialPrices.rows.find? (fun o => o.batchId = some batchPk && o.channel = channel)

/-! ### The services of one offer -/

def newCommercialPrice (productPk : ℕ) (batchPk : Option ℕ) (channel : Channel) (reason : String)
    (enabled : Bool) : NewRow CommercialPrice where
  make pk := ⟨pk, productPk, batchPk, channel, reason, enabled, []⟩
  pk_make _ := rfl

/-- Insert an offer, and return it with the key it got. -/
def Db.insertCommercialPrice (db : Db) (d : NewRow CommercialPrice) : Db × CommercialPrice :=
  ({ db with commercialPrices := db.commercialPrices.insert d }, d.make db.commercialPrices.next)

/-- Create disabled commercial pricing for one product scope. -/
def createCommercialPrice (db : Db) (productPk : ℕ) (channel : Channel) (batchPk : Option ℕ)
    (reason : String) : Result (Db × CommercialPrice) := do
  let d := newCommercialPrice productPk batchPk channel reason false
  let commercialPrice := d.make db.commercialPrices.next
  require (db.commercialPrices.rows.any (CommercialPrice.isFor commercialPrice.scope) = false)
    (.invalidCommercialPrice "commercial price already exists for this scope and channel")
  require (commercialPrice.fullClean db = true)
    (.invalidCommercialPrice "invalid commercial price configuration")
  return db.insertCommercialPrice d

/-- Lock an offer and save what becomes of it. -/
def editCommercialPrice (db : Db) (pk : ℕ) (edit : CommercialPrice → Result CommercialPrice) :
    Result Db := do
  let lockedPrice ← db.getCommercialPrice pk
  let saved ← edit lockedPrice
  return { db with commercialPrices := db.commercialPrices.put saved }

/-- The amount `update_or_create` writes, once `full_clean` has accepted it too. -/
def priceAmount (currency : Currency) (price : Decimal) (originalPrice : Option Decimal) :
    Result PriceAmount := do
  validateAmounts price originalPrice
  let cents ← price.column
  let originalCents ← originalPrice.mapM Decimal.column
  if h : 0 < cents then
    require (price.twoPlaces = true ∧ ∀ original ∈ originalPrice, original.twoPlaces = true)
      (.invalidCommercialPrice "invalid price amount")
    return ⟨currency, cents, originalCents, h⟩
  else throw (.integrityError "price_amount_positive")

/-- Create or replace one currency amount on a commercial price. -/
def setPriceAmount (db : Db) (pk : ℕ) (currency : Currency) (price : Decimal)
    (originalPrice : Option Decimal) : Result Db :=
  editCommercialPrice db pk (fun o =>
    (priceAmount currency price originalPrice).map o.withAmount)

/-- Remove one configured currency amount from a commercial price. -/
def removePriceAmount (db : Db) (pk : ℕ) (currency : Currency) : Result Db :=
  editCommercialPrice db pk (fun o => .ok (o.withoutAmount currency))

/-- Update why the current pricing differs from ordinary pricing. -/
def setCommercialPriceReason (db : Db) (pk : ℕ) (reason : String) : Result Db :=
  editCommercialPrice db pk (fun o => do
    require (({ o with reason := reason } : CommercialPrice).fullClean db = true)
      (.invalidCommercialPrice "invalid commercial price reason")
    return { o with reason := reason })

/-- Enable or disable a commercial pricing definition. -/
def setCommercialPriceEnabled (db : Db) (pk : ℕ) (enabled : Bool) : Result Db :=
  editCommercialPrice db pk (fun o => .ok { o with enabled := enabled })

/-- The product-wide standard offer for a channel, created enabled if it is missing. -/
def ensureStandardOffer (db : Db) (productPk : ℕ) (channel : Channel) :
    Result (Db × CommercialPrice) := do
  require (channel = .business)
    (.invalidCommercialPrice
      "standard offers are only created automatically for the business channel")
  match getProductCommercialPrice db productPk channel with
  | some existing => return (db, existing)
  | none => do
      require ((db.products.get? productPk).isSome = true) (.integrityError "product_id")
      return db.insertCommercialPrice (newCommercialPrice productPk none channel "" true)

/-! ### The pricing forms of the operations portal -/

/-- What a pricing form says about one channel. -/
structure ChannelPricing where
  eur : Option Decimal
  sek : Option Decimal
  enabled : Bool
  deriving DecidableEq

def ChannelPricing.amount (entry : ChannelPricing) : Currency → Option Decimal
  | .eur => entry.eur
  | .sek => entry.sek

/-- Nothing is configured and nothing is to be sold. -/
def ChannelPricing.isBlank (entry : ChannelPricing) : Bool :=
  entry.eur = none && entry.sek = none && !entry.enabled

/-- `_set_or_remove_amount`, and the body of the loop over the currencies of a product. -/
def setOrRemoveAmount (db : Db) (pk : ℕ) (currency : Currency) (amount : Option Decimal) :
    Result Db :=
  match amount with
  | none => removePriceAmount db pk currency
  | some amount => setPriceAmount db pk currency amount none

/-- The amounts of both currencies, and whether the offer is enabled. -/
def applyChannelPricing (db : Db) (pk : ℕ) (entry : ChannelPricing) : Result Db := do
  let db ← setOrRemoveAmount db pk .eur entry.eur
  let db ← setOrRemoveAmount db pk .sek entry.sek
  setCommercialPriceEnabled db pk entry.enabled

/-- `_update_channel_pricing` of a product. -/
def updateProductChannelPricing (db : Db) (productPk : ℕ) (channel : Channel)
    (entry : ChannelPricing) : Result Db :=
  match getProductCommercialPrice db productPk channel with
  | some commercialPrice => applyChannelPricing db commercialPrice.pk entry
  | none =>
      if channel = .business then do
        let (db, commercialPrice) ← ensureStandardOffer db productPk channel
        applyChannelPricing db commercialPrice.pk entry
      else if entry.isBlank then return db
      else do
        let (db, commercialPrice) ← createCommercialPrice db productPk channel none ""
        applyChannelPricing db commercialPrice.pk entry

/-- Apply product-wide ordinary pricing configured from the ops product UI. -/
def updateProductStandardPricing (db : Db) (productPk : ℕ) (business retail : ChannelPricing) :
    Result Db := do
  let db ← updateProductChannelPricing db productPk .business business
  updateProductChannelPricing db productPk .retail retail

/-- `_update_channel_pricing` of a batch. -/
def updateBatchChannelPricing (db : Db) (batch : InventoryBatch) (channel : Channel)
    (reason : String) (entry : ChannelPricing) : Result Db :=
  match getBatchCommercialPrice db batch.pk channel with
  | some commercialPrice => do
      let db ← setCommercialPriceReason db commercialPrice.pk reason
      applyChannelPricing db commercialPrice.pk entry
  | none =>
      if entry.isBlank then return db
      else do
        let (db, commercialPrice) ←
          createCommercialPrice db batch.productId channel (some batch.pk) reason
        applyChannelPricing db commercialPrice.pk entry

/-- Apply the special pricing of one batch. -/
def updateBatchSpecialPricing (db : Db) (batch : InventoryBatch) (reason : String)
    (business retail : ChannelPricing) : Result Db := do
  let db ← updateBatchChannelPricing db batch .business reason business
  updateBatchChannelPricing db batch .retail reason retail

/-! ### What a form shows of the offers on file -/

/-- `_amount_value`. -/
def amountValue (commercialPrice : Option CommercialPrice) (currency : Currency) : Option Cents :=
  commercialPrice.bind (fun o => (o.findAmount currency).map PriceAmount.price)

/-- `_pricing_status`: active or inactive. -/
def pricingStatus (commercialPrice : Option CommercialPrice) : Bool :=
  commercialPrice.any CommercialPrice.enabled

/-- The initial data of one channel. -/
structure ChannelInitialData where
  eur : Option Cents
  sek : Option Cents
  enabled : Bool
  deriving DecidableEq

def channelInitialData (commercialPrice : Option CommercialPrice) : ChannelInitialData :=
  ⟨amountValue commercialPrice .eur, amountValue commercialPrice .sek,
    pricingStatus commercialPrice⟩

/-- `_pricing_reason`: the first of the two that is not blank. -/
def pricingReason (businessPrice retailPrice : Option CommercialPrice) : String :=
  if businessPrice.any (fun o => o.reason ≠ "") then businessPrice.elim "" CommercialPrice.reason
  else if retailPrice.any (fun o => o.reason ≠ "") then retailPrice.elim "" CommercialPrice.reason
  else ""

end SwedeSweets
