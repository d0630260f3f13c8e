import SwedeSweets.Inventory.Availability
import SwedeSweets.Pricing.Selectors

namespace SwedeSweets

open Relational Fallible

/-!
# The business catalog

`listBusinessCatalogProducts` composes the catalog from bulk aggregates: the orderable
units per product, less those sold through enabled and priced batch offers, go to the
standard offer of the product.
-/

inductive CatalogOfferKind where
  | standard | batch
  deriving DecidableEq, Repr

/-- One channel-approved commercial choice for a catalog product. -/
structure CatalogOffer where
  kind : CatalogOfferKind
  commercialPriceId : ℕ
  batchId : Option ℕ
  reason : Option String
  price : Option Cents
  currency : Currency
  availableUnits : ℤ
  deriving DecidableEq, Repr

/-- One product exposed by a sales-channel catalog policy. -/
structure CatalogProduct where
  product : Product
  availableUnits : ℤ
  offers : List CatalogOffer
  deriving DecidableEq, Repr

/-! ### Rows -/

/-- Text columns compared by the database: earlier, or the same and decided by `rest`. -/
def textThen (rt : Runtime) (a b : String) (rest : Prop) : Prop :=
  (rt.textLe a b = true ∧ rt.textLe b a = false)
    ∨ (rt.textLe a b = true ∧ rt.textLe b a = true ∧ rest)

instance (rt : Runtime) (a b : String) (rest : Prop) [Decidable rest] :
    Decidable (textThen rt a b rest) := by
  unfold textThen; infer_instance

/-- `None` sorts last. -/
def optionThen (a b : Option ℕ) (rest : Prop) : Prop :=
  match a, b with
  | some x, some y => x < y ∨ (x = y ∧ rest)
  | some _, none => True
  | none, some _ => False
  | none, none => rest

instance (a b : Option ℕ) (rest : Prop) [Decidable rest] : Decidable (optionThen a b rest) := by
  unfold optionThen
  split <;> infer_instance

/-- `order_by("internal_number", "brand", "name", "weight_per_unit", "sku")`. -/
def catalogOrder (rt : Runtime) (a b : Product) : Prop :=
  optionThen a.internalNumber b.internalNumber
    (textThen rt a.brand b.brand (textThen rt a.name b.name
      (a.weightPerUnit < b.weightPerUnit ∨ (a.weightPerUnit = b.weightPerUnit
        ∧ rt.textLe a.sku b.sku = true))))

instance (rt : Runtime) (a b : Product) : Decidable (catalogOrder rt a b) := by
  unfold catalogOrder; infer_instance

def listCatalogProducts (rt : Runtime) (db : Db) (productIds : List ℕ) : List Product :=
  (db.products.select (fun p => p.active && productIds.contains p.pk)).insertionSort
    (catalogOrder rt)

/-- `order_by("product_id", "channel", "batch_id", "id")` within one channel. -/
def commercialPriceOrder (a b : CommercialPrice) : Prop :=
  a.productId < b.productId ∨ (a.productId = b.productId
    ∧ optionThen a.batchId b.batchId (a.pk ≤ b.pk))

instance (a b : CommercialPrice) : Decidable (commercialPriceOrder a b) := by
  unfold commercialPriceOrder; infer_instance

/-- Commercial prices of one channel. -/
def listCommercialPrices (db : Db) (channel : Channel) : List CommercialPrice :=
  (db.commercialPrices.select (fun o => o.channel = channel)).insertionSort commercialPriceOrder

/-! ### Offers -/

def buildStandardOffer (availableUnits : ℤ) (standardOffer : CommercialPrice) : CatalogOffer where
  kind := .standard
  commercialPriceId := standardOffer.pk
  batchId := none
  reason := none
  price := (standardOffer.findAmount .eur).map PriceAmount.price
  currency := .eur
  availableUnits := availableUnits

/-- An enabled batch offer with an EUR amount, with its batch and that amount. -/
def batchPriceCandidate (o : CommercialPrice) : Option (CommercialPrice × ℕ × PriceAmount) :=
  match o.batchId with
  | none => none
  | some batchId =>
      if o.enabled = true then (o.findAmount .eur).map (fun amount => (o, batchId, amount))
      else none

def batchPriceCandidates (commercialPrices : List CommercialPrice) :
    List (CommercialPrice × ℕ × PriceAmount) :=
  commercialPrices.filterMap batchPriceCandidate

def batchOffer (availableUnits : ℤ) (candidate : CommercialPrice × ℕ × PriceAmount) :
    CatalogOffer where
  kind := .batch
  commercialPriceId := candidate.1.pk
  batchId := some candidate.2.1
  reason := if candidate.1.reason = "" then none else some candidate.1.reason
  price := some candidate.2.2.price
  currency := candidate.2.2.currency
  availableUnits := availableUnits

/-- The batch offers with units left, each with its product. -/
def batchOffers (availableUnitsByBatchPk : Dict ℕ ℤ)
    (candidates : List (CommercialPrice × ℕ × PriceAmount)) : List (ℕ × CatalogOffer) :=
  (candidates.filter (fun c => 0 < availableUnitsByBatchPk.getD c.2.1 0)).map
    (fun c => (c.1.productId, batchOffer (availableUnitsByBatchPk.getD c.2.1 0) c))

/-- One product of the catalog, unless it has nothing to offer. -/
def catalogProduct (totalAvailableUnits batchOfferUnits : ℤ) (standardOffer : CommercialPrice)
    (batchOffers : List CatalogOffer) (product : Product) : Option CatalogProduct :=
  let standardAvailableUnits := max (totalAvailableUnits - batchOfferUnits) 0
  let offers :=
    (if 0 < standardAvailableUnits ∧ standardOffer.enabled = true then
      [buildStandardOffer standardAvailableUnits standardOffer] else []) ++ batchOffers
  if offers = [] then none else some ⟨product, totalAvailableUnits, offers⟩

/-- Return the business catalog as shared product/offer contracts. -/
def listBusinessCatalogProducts (rt : Runtime) (db : Db) : Result (List CatalogProduct) := do
  let availableUnitsByProductId := orderableQuantityByProductId rt db
  let candidateProductIds :=
    (availableUnitsByProductId.entries.filter (fun e => 0 < e.2)).map Prod.fst
  if candidateProductIds = [] then return []
  let products := listCatalogProducts rt db candidateProductIds
  if products = [] then return []
  let commercialPrices := (listCommercialPrices db .business).filter
    (fun o => candidateProductIds.contains o.productId)
  let standardOfferByProductId := fun productId =>
    (commercialPrices.filter (fun o => o.batchId = none ∧ o.productId = productId)).getLast?
  let candidates := batchPriceCandidates commercialPrices
  let missingStandardOfferProducts := products.filter
    (fun p => (standardOfferByProductId p.pk).isNone)
  require (missingStandardOfferProducts = []) (.runtimeError
    ("business catalog invariant violated: missing standard BUSINESS offer for "
      ++ String.intercalate ", " (missingStandardOfferProducts.map Product.displayName)))
  let availableUnitsByBatchPk := orderableQuantityByBatchPk rt db (candidates.map (fun c => c.2.1))
  let batchOffers := batchOffers availableUnitsByBatchPk candidates
  let batchOfferUnitsByProductId := Dict.accumulate
    (batchOffers.map (fun e => (e.1, e.2.availableUnits)))
  let rows ← products.mapM (fun product => do
    let standardOffer ← orRaise (standardOfferByProductId product.pk) .keyError
    return catalogProduct (availableUnitsByProductId.getD product.pk 0)
      (batchOfferUnitsByProductId.getD product.pk 0) standardOffer
      ((batchOffers.filter (fun e => e.1 = product.pk)).map Prod.snd) product)
  return rows.filterMap id

end SwedeSweets
