import SwedeSweets.Inventory.Selectors

namespace SwedeSweets

open Relational

/-!
# Offer pools

The stock pool one commercial offer can draw from: its own batch for a batch offer, the
product's orderable batches without those sold through an offer of their own for a
product-wide offer (`listOrderableBatchesForOffer`), and the retail pool, which also wants
the offer priced and enabled (`listBatchesForRetailPrice`).  Every pool holds orderable
batches only.
-/

/-- `offer.product.active`; the foreign key of an offer always resolves. -/
def productActive (db : Db) (productId : ℕ) : Bool :=
  (db.products.get? productId).any Product.active

/-- Whether an offer carries an amount in a currency. -/
def CommercialPrice.hasAmount (o : CommercialPrice) (currency : Currency) : Bool :=
  o.amounts.any (fun a => a.currency = currency)

/-- The batch has an enabled offer of its own in the channel, priced in the currency. -/
def isExcludedBatch (db : Db) (channel : Channel) (currency : Currency) (batchPk : ℕ) : Bool :=
  db.commercialPrices.rows.any (fun o =>
    o.channel = channel && o.enabled && o.hasAmount currency && o.batchId = some batchPk)

/-- The stock pool one `CommercialPrice` offer can draw from. -/
def listOrderableBatchesForOffer (rt : Runtime) (db : Db) (offer : CommercialPrice)
    (currency : Currency) : BatchQuery :=
  if !offer.enabled || !productActive db offer.productId then .none
  else
    match offer.batchId with
    | some batchPk => fun b => b.pk = batchPk && isOrderable rt.today b
    | none => fun b =>
        listOrderableBatchesForProduct rt.today offer.productId b
          && !isExcludedBatch db offer.channel currency b.pk

/-- The enabled amount configured for one exact batch, with its offer. -/
def getBatchPriceAmount (db : Db) (batchPk : ℕ) (channel : Channel) (currency : Currency) :
    Option (CommercialPrice × PriceAmount) :=
  db.commercialPrices.rows.findSome? (fun o =>
    if o.batchId = some batchPk ∧ o.channel = channel ∧ o.enabled = true then
      (o.findAmount currency).map (fun a => (o, a))
    else none)

/-- The enabled product-wide amount for one channel and currency, with its offer. -/
def getProductPriceAmount (db : Db) (productId : ℕ) (channel : Channel) (currency : Currency) :
    Option (CommercialPrice × PriceAmount) :=
  db.commercialPrices.rows.findSome? (fun o =>
    if o.productId = productId ∧ o.batchId = none ∧ o.channel = channel ∧ o.enabled = true then
      (o.findAmount currency).map (fun a => (o, a))
    else none)

/-- The stock pool represented by one retail `CommercialPrice`. -/
def listBatchesForRetailPrice (rt : Runtime) (db : Db) (commercialPrice : CommercialPrice)
    (currency : Currency) : BatchQuery :=
  if commercialPrice.channel ≠ .retail then .none
  else
    let amount :=
      match commercialPrice.batchId with
      | some batchPk => getBatchPriceAmount db batchPk .retail currency
      | none => getProductPriceAmount db commercialPrice.productId .retail currency
    match amount with
    | none => .none
    | some (owner, _) =>
        if owner.pk ≠ commercialPrice.pk then .none
        else listOrderableBatchesForOffer rt db commercialPrice currency

/-- Only the products and the prices matter for what a pool is. -/
theorem listOrderableBatchesForOffer_congr {db db' : Db} (hproducts : db'.products = db.products)
    (hprices : db'.commercialPrices = db.commercialPrices) (rt : Runtime) (offer : CommercialPrice)
    (currency : Currency) :
    listOrderableBatchesForOffer rt db' offer currency
      = listOrderableBatchesForOffer rt db offer currency := by
  unfold listOrderableBatchesForOffer productActive isExcludedBatch
  rw [hproducts, hprices]

/-- The pool of a retail price depends on products and offers only. -/
theorem listBatchesForRetailPrice_congr {db db' : Db} (hproducts : db'.products = db.products)
    (hprices : db'.commercialPrices = db.commercialPrices) (rt : Runtime) (offer : CommercialPrice)
    (currency : Currency) :
    listBatchesForRetailPrice rt db' offer currency
      = listBatchesForRetailPrice rt db offer currency := by
  unfold listBatchesForRetailPrice getBatchPriceAmount getProductPriceAmount
  rw [hprices, listOrderableBatchesForOffer_congr hproducts hprices]

/-- A pool holds orderable batches only. -/
theorem isOrderable_of_offer {rt : Runtime} {db : Db} {offer : CommercialPrice}
    {currency : Currency} {b : InventoryBatch}
    (h : listOrderableBatchesForOffer rt db offer currency b = true) :
    isOrderable rt.today b = true := by
  unfold listOrderableBatchesForOffer at h
  by_cases hoff : (!offer.enabled || !productActive db offer.productId) = true
  · rw [if_pos hoff] at h
    cases h
  · rw [if_neg hoff] at h
    cases hb : offer.batchId with
    | some batchPk => simp_all
    | none => simp_all [listOrderableBatchesForProduct]

/-- A batch of a retail pool is in the pool of the offer. -/
theorem pool_of_retail {rt : Runtime} {db : Db} {offer : CommercialPrice}
    {currency : Currency} {b : InventoryBatch}
    (h : listBatchesForRetailPrice rt db offer currency b = true) :
    listOrderableBatchesForOffer rt db offer currency b = true := by
  unfold listBatchesForRetailPrice at h
  by_cases hch : offer.channel ≠ .retail
  · rw [if_pos hch] at h
    cases h
  · rw [if_neg hch] at h
    revert h
    cases (match offer.batchId with
      | some batchPk => getBatchPriceAmount db batchPk .retail currency
      | none => getProductPriceAmount db offer.productId .retail currency) with
    | none => intro h; cases h
    | some p =>
      obtain ⟨owner, amount⟩ := p
      -- Another offer owns the amount: the selector returns no batch.
      by_cases hpk : owner.pk ≠ offer.pk
      · simp [hpk, BatchQuery.none]
      · simp only [hpk, if_false]
        exact id

/-- The batches of a retail price are orderable. -/
theorem isOrderable_of_retail {rt : Runtime} {db : Db} {offer : CommercialPrice}
    {currency : Currency} {b : InventoryBatch}
    (h : listBatchesForRetailPrice rt db offer currency b = true) :
    isOrderable rt.today b = true :=
  isOrderable_of_offer (pool_of_retail h)

end SwedeSweets
