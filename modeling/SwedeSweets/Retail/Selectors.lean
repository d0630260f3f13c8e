import SwedeSweets.Business.Selectors

namespace SwedeSweets

open Relational

/-!
# The retail catalog

`Retail.listCatalogProducts` lists the enabled retail offers with an EUR amount and stock
behind them.  The units of an offer are summed up from the batches of its pool
(`Retail.availableUnits`).
-/

namespace Retail

/-- The units the catalog shows for an offer. -/
def availableUnits (rt : Runtime) (db : Db) (commercialPrice : CommercialPrice)
    (currency : Currency) : ℕ :=
  ((db.batches.select (listBatchesForRetailPrice rt db commercialPrice currency)).map
    InventoryBatch.quantity).sum

/-- The entry of an offer. -/
def catalogOffer (commercialPrice : CommercialPrice) (amount : PriceAmount)
    (availableUnits : ℕ) : CatalogOffer where
  kind := if commercialPrice.batchId.isSome then .batch else .standard
  commercialPriceId := commercialPrice.pk
  batchId := commercialPrice.batchId
  reason := if commercialPrice.reason = "" then none else some commercialPrice.reason
  price := some amount.price
  currency := amount.currency
  availableUnits := availableUnits

/-- The entry of an offer with its product, if it has an EUR amount and units. -/
def listedOffer (rt : Runtime) (db : Db) (commercialPrice : CommercialPrice) :
    Option (ℕ × CatalogOffer) := do
  let amount ← commercialPrice.findAmount .eur
  let units := availableUnits rt db commercialPrice amount.currency
  if units = 0 then none
  else some (commercialPrice.productId, catalogOffer commercialPrice amount units)

/-- Return the retail catalog as shared product/offer contracts. -/
def listCatalogProducts (rt : Runtime) (db : Db) : List CatalogProduct :=
  let commercialPrices := (listCommercialPrices db .retail).filter CommercialPrice.enabled
  let offers := commercialPrices.filterMap (listedOffer rt db)
  let products := SwedeSweets.listCatalogProducts rt db (offers.map Prod.fst)
  products.map (fun product =>
    let productOffers := (offers.filter (fun e => e.1 = product.pk)).map Prod.snd
    ⟨product, (productOffers.map CatalogOffer.availableUnits).sum, productOffers⟩)

variable {rt : Runtime} {db : Db}

/-- The amount found has the currency asked for. -/
theorem findAmount_currency {o : CommercialPrice} {currency : Currency} {amount : PriceAmount}
    (h : o.findAmount currency = some amount) : amount.currency = currency := by
  simpa using List.find?_some h

/-- Every entry of the catalog is of an enabled retail offer, with the units of its pool. -/
theorem offer_of_listed {row : CatalogProduct} (hrow : row ∈ listCatalogProducts rt db)
    {co : CatalogOffer} (hco : co ∈ row.offers) :
    ∃ o ∈ db.commercialPrices, o.channel = .retail ∧ o.enabled = true ∧ o.pk = co.commercialPriceId
      ∧ co.availableUnits = availableUnits rt db o .eur ∧ availableUnits rt db o .eur ≠ 0 := by
  obtain ⟨product, -, rfl⟩ := List.mem_map.mp hrow
  obtain ⟨e, he, rfl⟩ := List.mem_map.mp hco
  obtain ⟨o, ho, hlisted⟩ := List.mem_filterMap.mp (List.mem_filter.mp he).1
  obtain ⟨ho, henabled⟩ := List.mem_filter.mp ho
  obtain ⟨ho, hch⟩ := Table.mem_select.mp ((List.perm_insertionSort _ _).mem_iff.mp ho)
  unfold listedOffer at hlisted
  obtain ⟨amount, hamount, hlisted⟩ := Option.bind_eq_some_iff.mp hlisted
  rw [findAmount_currency hamount] at hlisted
  -- An offer without available units is not listed.
  by_cases hzero : availableUnits rt db o .eur = 0
  · rw [if_pos hzero] at hlisted
    cases hlisted
  · rw [if_neg hzero, Option.some.injEq] at hlisted
    subst hlisted
    exact ⟨o, ho, by simpa using hch, henabled, rfl, rfl, hzero⟩

end Retail

end SwedeSweets
