import SwedeSweets.Guarantees.Catalog
import SwedeSweets.Retail.Selectors

namespace SwedeSweets

open Relational Fallible Transition

/-!
# What the retail catalog promises

The units of a listed offer are the physical units of its pool, reserved or not.  So
`retail_catalog_promises`: they are what a payment can reserve exactly when no batch of the
pool holds an active reservation.  In `retail_catalog_sold_out` a business order holds all
stock, and the offer is listed with all of it.
-/

/-- A reservation from the pool of the offer succeeds iff it asks for no more than `units`. -/
def PromisedExactly (rt : Runtime) (db : Db) (o : CommercialPrice) (units : ℤ) : Prop :=
  ∀ line : OrderLine, line.productId = o.productId → ∀ reservedUntil : Option Time, ∀ q : ℕ, 1 ≤ q →
    ((∃ db', reserveOrderLineFromPool rt db line (listBatchesForRetailPrice rt db o .eur) q
        reservedUntil = .ok db') ↔ (q : ℤ) ≤ units)

variable {rt : Runtime} {db : Db}

/-- The units of a pool are its free units and what is reserved of it. -/
theorem availableUnits_eq (o : CommercialPrice) :
    Retail.availableUnits rt db o .eur
      = db.poolCapacity rt.now (listBatchesForRetailPrice rt db o .eur)
        + db.batches.total (fun b => if listBatchesForRetailPrice rt db o .eur b = true then
            b.quantity - db.freeUnits rt.now b else 0) := by
  rw [Db.poolCapacity_eq, ← Table.total_add]
  refine (Table.sum_select _ _ _).trans (Table.total_congr (fun b _ => ?_))
  by_cases hq : listBatchesForRetailPrice rt db o .eur b = true
  · have hle : db.freeUnits rt.now b ≤ b.quantity := Nat.sub_le _ _
    simp only [if_pos hq]
    omega
  · simp only [if_neg hq]

/-- Nothing of a pool is reserved iff no batch of it has active reservations. -/
theorem availableUnits_eq_capacity_iff (o : CommercialPrice) :
    Retail.availableUnits rt db o .eur
        = db.poolCapacity rt.now (listBatchesForRetailPrice rt db o .eur) ↔
      ∀ b ∈ db.batches, listBatchesForRetailPrice rt db o .eur b = true →
        db.activeReserved rt.now b.pk = 0 := by
  rw [availableUnits_eq, Nat.add_eq_left, Table.total_eq_zero]
  refine forall₂_congr (fun b _ => ?_)
  by_cases hq : listBatchesForRetailPrice rt db o .eur b = true
  · -- a batch of a pool has stock, so a unit reserved is a unit less
    have hpos : 0 < b.quantity := (isOrderable_iff.mp (isOrderable_of_retail hq)).2.1
    rw [if_pos hq]
    unfold Db.freeUnits
    constructor
    · intro hzero _
      omega
    · intro hzero
      rw [hzero hq]
      omega
  · simp [hq]

/-- **The retail catalog.** The units listed with an offer are exactly what can be reserved for
    it iff no batch of its pool has active reservations. -/
theorem retail_catalog_promises (h : OfferConstraints db) :
    ∀ row ∈ Retail.listCatalogProducts rt db, ∀ co ∈ row.offers, ∃ o ∈ db.commercialPrices,
      o.pk = co.commercialPriceId ∧
        (PromisedExactly rt db o co.availableUnits ↔
          ∀ b ∈ db.batches, listBatchesForRetailPrice rt db o .eur b = true →
            db.activeReserved rt.now b.pk = 0) := by
  intro row hrow co hco
  obtain ⟨o, ho, -, -, hpk, hunits, hne⟩ := Retail.offer_of_listed hrow hco
  refine ⟨o, ho, hpk, ?_⟩
  rw [← availableUnits_eq_capacity_iff, hunits]
  have hreserve : ∀ line : OrderLine, line.productId = o.productId → ∀ reservedUntil q, 1 ≤ q →
      ((∃ db', reserveOrderLineFromPool rt db line (listBatchesForRetailPrice rt db o .eur)
          (q : ℕ) reservedUntil = .ok db') ↔
        q ≤ db.poolCapacity rt.now (listBatchesForRetailPrice rt db o .eur)) := by
    intro line hline reservedUntil q hq
    rw [reserveOrderLineFromPool_returns]
    exact ⟨fun hr => hr.2.2, fun hcap =>
      ⟨hq, fun b hb hpool => (h.productId_of_pool ho hb (pool_of_retail hpool)).trans hline.symm, hcap⟩⟩
  constructor
  · intro hexact
    have hle : Retail.availableUnits rt db o .eur = _ := availableUnits_eq o
    -- ask for all the units that are listed
    let line : OrderLine := ⟨0, 0, o.productId, 1, none, o.pk, none, none, by decide, by simp⟩
    have hall := (hexact line rfl none _ (Nat.one_le_iff_ne_zero.mpr hne)).mpr le_rfl
    have hcap := (hreserve line rfl none _ (Nat.one_le_iff_ne_zero.mpr hne)).mp hall
    omega
  · intro heq line hline reservedUntil q hq
    rw [hreserve line hline reservedUntil q hq, heq]
    exact Nat.cast_le.symm

namespace Shop

/-- A business order for all ten units. -/
def soldOut : List (Runtime × Op) :=
  opening ++ [(runtime 1, .createOrder 7 [⟨10, .stock, some 1, none⟩] none)]

/-- The retail offer of the product. -/
theorem opening_offers : OfferConstraints (State.init.after opening).db := by
  decide +kernel

end Shop

/-- The retail catalog before any order lists its offer with the ten units it can reserve. -/
theorem retail_catalog_promises_opening :
    ∃ row ∈ Retail.listCatalogProducts (Shop.runtime 1) (State.init.after Shop.opening).db,
      ∃ co ∈ row.offers, co.availableUnits = 10 ∧ ∃ o ∈ (State.init.after Shop.opening).db.commercialPrices,
        o.pk = co.commercialPriceId
          ∧ PromisedExactly (Shop.runtime 1) (State.init.after Shop.opening).db o 10 := by
  have hrow : ∃ row ∈ Retail.listCatalogProducts (Shop.runtime 1) (State.init.after Shop.opening).db,
      ∃ co ∈ row.offers, co.availableUnits = 10 := by decide +kernel
  obtain ⟨row, hrow, co, hco, hunits⟩ := hrow
  obtain ⟨o, ho, hpk, hiff⟩ := retail_catalog_promises Shop.opening_offers row hrow co hco
  refine ⟨row, hrow, co, hco, hunits, o, ho, hpk, hunits ▸ hiff.mpr (fun b hb _ => ?_)⟩
  have hnone : ∀ b ∈ (State.init.after Shop.opening).db.batches.rows,
      (State.init.after Shop.opening).db.activeReserved (Shop.runtime 1).now b.pk = 0 := by
    decide +kernel
  exact hnone b hb

/-- **Sold out.** A business order holds all ten units; the retail offer is listed with ten
    units, and not one of them can be reserved. -/
theorem retail_catalog_sold_out :
    Reachable (State.init.after Shop.soldOut) ∧
      ReservationsFit (Shop.runtime 2).now (State.init.after Shop.soldOut).db ∧
      (State.init.after Shop.soldOut).db.poolCapacity (Shop.runtime 2).now
        (listBatchesForRetailPrice (Shop.runtime 2) (State.init.after Shop.soldOut).db
          Shop.retailOffer .eur) = 0 ∧
      ∃ row ∈ Retail.listCatalogProducts (Shop.runtime 2) (State.init.after Shop.soldOut).db,
        ∃ co ∈ row.offers, co.commercialPriceId = Shop.retailOffer.pk ∧ co.availableUnits = 10
          ∧ ¬ PromisedExactly (Shop.runtime 2) (State.init.after Shop.soldOut).db Shop.retailOffer
            co.availableUnits := by
  have hcap : (State.init.after Shop.soldOut).db.poolCapacity (Shop.runtime 2).now
      (listBatchesForRetailPrice (Shop.runtime 2) (State.init.after Shop.soldOut).db
        Shop.retailOffer .eur) = 0 := by decide +kernel
  have hrow : ∃ row ∈ Retail.listCatalogProducts (Shop.runtime 2) (State.init.after Shop.soldOut).db,
      ∃ co ∈ row.offers, co.commercialPriceId = Shop.retailOffer.pk ∧ co.availableUnits = 10 := by
    decide +kernel
  have hfit : ∀ b ∈ (State.init.after Shop.soldOut).db.batches.rows,
      (State.init.after Shop.soldOut).db.activeReserved (Shop.runtime 2).now b.pk ≤ b.quantity := by
    decide +kernel
  obtain ⟨row, hrow, co, hco, hpk, hunits⟩ := hrow
  refine ⟨reachable_after _ (by decide), hfit, hcap, row, hrow, co, hco, hpk, hunits, fun hexact => ?_⟩
  -- one unit is listed, and none is free
  let line : OrderLine := ⟨0, 0, 1, 1, none, 2, none, none, by decide, by simp⟩
  have hone := (hexact line rfl none 1 le_rfl).mpr (by rw [hunits]; decide)
  have hle := (reserveOrderLineFromPool_returns.mp hone).2.2
  omega

end SwedeSweets
