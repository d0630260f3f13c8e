import SwedeSweets.Business.DraftMutations
import SwedeSweets.Guarantees.DraftPlacement
import SwedeSweets.Guarantees.OrderLines

namespace SwedeSweets

open Relational Fallible Transition

/-!
# The units of a draft line and the pool of its offer

An explicit line is held against the catalog entry of its offer, which shows the free units of
the pool.  A legacy line is held against all orderable units of its product, and so may ask for
units on batches that other offers sell (`Db.unitsOutside`).  `draft_mutation_pool`: a call keeps
its line within the pool of the line's offer iff the line is explicit or leaves those units.
-/

variable {rt : Runtime} {db db' : Db} {m : LineMutation} {k : ℕ} {old : Option OrderLine}
  {new : OrderLine} {o : CommercialPrice}

/-- The free units of the offer's product on orderable batches outside the pool of the offer. -/
def Db.unitsOutside (rt : Runtime) (db : Db) (o : CommercialPrice) : ℕ :=
  db.poolCapacity rt.now (fun b => listOrderableBatchesForProduct rt.today o.productId b
    && !listOrderableBatchesForOffer rt db o .eur b)

namespace LineMutation

/-- The line is explicit, or the units it is to have leave those the offer does not sell. -/
def KeepsToPool (rt : Runtime) (db : Db) (old : Option OrderLine) (o : CommercialPrice)
    (m : LineMutation) : Prop :=
  m.explicit old = true ∨
    m.requested old + db.unitsOutside rt o ≤ (orderableQuantityByProductId rt db).getD o.productId 0

/-- Every call keeps the lines of an order apart. -/
theorem oneLinePerOffer (h : OneLinePerOffer db) (hok : m.run rt db = .ok db') :
    OneLinePerOffer db' := by
  cases m with
  | addCatalogOffer _ _ _ _ =>
    obtain ⟨r, hr, rfl⟩ := map_eq_ok.mp hok
    exact h.addCatalogOffer hr
  | addProduct _ _ _ =>
    obtain ⟨r, hr, rfl⟩ := map_eq_ok.mp hok
    exact h.addProduct hr
  | setLine _ _ _ => exact h.setDraftLine hok
  | setProduct _ _ _ =>
    obtain ⟨line, -, hset⟩ := bind_eq_ok.mp hok
    exact h.setDraftLine hset

end LineMutation

/-- The orderable units of a product are those of the pool of one of its offers, and those
    outside. -/
theorem orderable_split (hc : OfferConstraints db) (hfit : ReservationsFit rt.now db)
    (ho : o ∈ db.commercialPrices) :
    (orderableQuantityByProductId rt db).getD o.productId 0
      = db.poolCapacity rt.now (listOrderableBatchesForOffer rt db o .eur)
        + db.unitsOutside rt o := by
  rw [getD_orderableQuantityByProductId hfit, Db.unitsOutside, ← Nat.cast_add, Db.poolCapacity_eq,
    Db.poolCapacity_eq, Db.poolCapacity_eq, ← Table.total_add]
  refine congrArg Nat.cast (Table.total_congr (fun b hb => ?_))
  by_cases hpool : listOrderableBatchesForOffer rt db o .eur b = true
  · have hproduct : listOrderableBatchesForProduct rt.today o.productId b = true := by
      simp [listOrderableBatchesForProduct, hc.productId_of_pool ho hb hpool,
        isOrderable_of_offer hpool]
    simp [hpool, hproduct]
  · simp [hpool]

namespace Wrote

/-- An explicit line fits the pool of its offer, and may be reserved from it. -/
theorem fits_of_explicit (h : Wrote rt db m k old new db') (hc : OfferConstraints db)
    (hfit : ReservationsFit rt.now db) (hlines : OneLinePerOffer db')
    (hexplicit : new.isExplicit = true) (ho : o ∈ db.commercialPrices)
    (hpk : o.pk = new.commercialOfferId) :
    Servable db new o ∧ new.quantityInUnits
      ≤ db.poolCapacity rt.now (listOrderableBatchesForOffer rt db o .eur) := by
  obtain ⟨s, hs⟩ := Option.isSome_iff_exists.mp hexplicit
  have hselection : new.businessOfferSelection = some (some new.commercialOfferId) :=
    hlines.selection new h.write.mem.1 s hs ▸ hs
  -- The explicit path checks the offer's entry in the catalog.
  have havailable := h.available
  unfold Business.requireAvailable Business.getExplicitOfferForOrderLine at havailable
  simp only [hselection, bind_eq_ok, require_eq_ok] at havailable
  obtain ⟨co, ⟨row, hrow, hco⟩, hle⟩ := havailable
  obtain ⟨o', ho', hpk', hentry⟩ := entry_of_lookup hc hfit hrow hco
  obtain rfl : o' = o := Table.eq_of_pk_eq (t := db.commercialPrices) ho' ho (hpk'.trans hpk.symm)
  refine ⟨⟨ho, hpk, hentry.ofProduct, hentry.channel, hentry.sellable⟩, ?_⟩
  rw [← h.units, hentry.units] at hle
  exact_mod_cast hle

/-- The line fits the pool of its offer iff the call keeps to it. -/
theorem fits_iff (h : Wrote rt db m k old new db') (hc : OfferConstraints db)
    (hfit : ReservationsFit rt.now db) (hlines : OneLinePerOffer db') (ho : o ∈ db.commercialPrices)
    (hpk : o.pk = new.commercialOfferId) :
    new.quantityInUnits ≤ db.poolCapacity rt.now (listOrderableBatchesForOffer rt db o .eur)
      ↔ m.KeepsToPool rt db old o := by
  unfold LineMutation.KeepsToPool
  rw [← h.kind, orderable_split hc hfit ho, ← h.units]
  by_cases hexplicit : new.isExplicit = true
  · exact iff_of_true (h.fits_of_explicit hc hfit hlines hexplicit ho hpk).2 (Or.inl hexplicit)
  · rw [or_iff_right hexplicit]
    omega

end Wrote

/-- **The pool of the line.** In every reachable database a successful call leaves the line it is
    about within the free units of the pool of its offer iff it keeps to the pool; the line of an
    offer that may be sold can then be reserved, and otherwise it cannot. -/
theorem draft_mutation_pool {ms : List BusinessMove} (hreach : Run BusinessStep Db.empty ms db)
    (hc : OfferConstraints db) (hfit : ReservationsFit rt.now db) (hok : m.run rt db = .ok db') :
    ∃ k old new, Wrote rt db m k old new db' ∧ new ∈ db'.orderLines k ∧
      ∀ o ∈ db'.commercialPrices, o.pk = new.commercialOfferId →
        (new.quantityInUnits
            ≤ db'.poolCapacity rt.now (listOrderableBatchesForOffer rt db' o .eur)
          ↔ m.KeepsToPool rt db old o) ∧
        (m.explicit old = true → Servable db' new o) ∧
        (Servable db' new o →
          ((∃ db'', reserveBusinessLine rt db' new = .ok db'') ↔ m.KeepsToPool rt db old o)) := by
  have hlines : OneLinePerOffer db' := LineMutation.oneLinePerOffer (OneLinePerOffer.ofRun hreach) hok
  obtain ⟨k, old, new, hw⟩ := LineMutation.wrote hok
  refine ⟨k, old, new, hw, Db.mem_orderLines.mpr hw.write.mem, ?_⟩
  -- the stock, the offers and the products are what they were before the call
  obtain ⟨orders, lines, hdb⟩ := hw.frame
  have hpool : ∀ o : CommercialPrice,
      db'.poolCapacity rt.now (listOrderableBatchesForOffer rt db' o .eur)
        = db.poolCapacity rt.now (listOrderableBatchesForOffer rt db o .eur) := by
    intro o
    rw [hdb]
    rfl
  have hprices : db'.commercialPrices = db.commercialPrices := by rw [hdb]
  have hproducts : db'.products = db.products := by rw [hdb]
  have hbatches : db'.batches = db.batches := by rw [hdb]
  intro o ho hpk
  rw [hprices] at ho
  have hfits := hw.fits_iff hc hfit hlines ho hpk
  rw [hpool]
  refine ⟨hfits, fun hexplicit => ?_, fun hservable => ?_⟩
  · exact (hw.fits_of_explicit hc hfit hlines (hw.kind.trans hexplicit) ho hpk).1.frame
      hproducts hprices
  · rw [reserveBusinessLine_returns (hc.frame hprices hbatches) hservable, hpool]
    exact hfits

namespace Shop

def clearance : Db := (State.init.after clearanceOps).db

/-- A product addition of more units than the standard offer sells. -/
def overdraw : LineMutation := .addProduct 7 product 12

def overdrawn : Db := clearance.commit (overdraw.run (runtime 3) clearance)

/-- The example is reached by a run. -/
theorem clearance_run : ∃ ms, Run BusinessStep Db.empty ms clearance := by
  have hopening : Elsewhere Db.empty clearance :=
    ⟨rfl, fun o ho => absurd ho (Table.not_mem_empty o),
      fun o _ => Or.inr (fun l hl => absurd hl (Table.not_mem_empty l))⟩
  exact ⟨_, Run.single (BusinessStep.elsewhere hopening)⟩

/-- The example's offers fit together. -/
theorem clearance_offers : OfferConstraints clearance := by decide +kernel

/-- The example's reservations fit. -/
theorem clearance_fit : ReservationsFit (runtime 3).now clearance := by decide +kernel

end Shop

/-- **Beyond the pool.** Twelve units are accepted on a line of an offer that has ten, and the
    line cannot be reserved. -/
theorem draft_beyond_pool :
    (∃ ms, Run BusinessStep Db.empty ms Shop.clearance) ∧ OfferConstraints Shop.clearance ∧
      ReservationsFit (Shop.runtime 3).now Shop.clearance ∧
      Shop.overdraw.run (Shop.runtime 3) Shop.clearance = .ok Shop.overdrawn ∧
      ∃ l ∈ Shop.overdrawn.orderLines 1, l.quantityInUnits = 12 ∧
        ∃ o ∈ Shop.overdrawn.commercialPrices, o.pk = l.commercialOfferId ∧
          Shop.overdrawn.poolCapacity (Shop.runtime 3).now
            (listOrderableBatchesForOffer (Shop.runtime 3) Shop.overdrawn o .eur) = 10 ∧
          (reserveBusinessLine (Shop.runtime 3) Shop.overdrawn l).isOk = false ∧
          (Business.placeOrder (Shop.runtime 3) Shop.overdrawn 1 none).isOk = false := by
  have hok : Shop.overdraw.run (Shop.runtime 3) Shop.clearance = .ok Shop.overdrawn :=
    Db.commit_eq (by decide +kernel)
  -- Twelve units are accepted for an offer whose pool has ten.
  have hline : ∃ l ∈ Shop.overdrawn.orderLines 1, l.quantityInUnits = 12 ∧
      ∃ o ∈ Shop.overdrawn.commercialPrices.rows, o.pk = l.commercialOfferId ∧
        Shop.overdrawn.poolCapacity (Shop.runtime 3).now
          (listOrderableBatchesForOffer (Shop.runtime 3) Shop.overdrawn o .eur) = 10 ∧
        (reserveBusinessLine (Shop.runtime 3) Shop.overdrawn l).isOk = false ∧
        (Business.placeOrder (Shop.runtime 3) Shop.overdrawn 1 none).isOk = false := by
    decide +kernel
  exact ⟨Shop.clearance_run, Shop.clearance_offers, Shop.clearance_fit, hok, hline⟩

/-- The addition that goes beyond the pool is one of those that do not keep to it. -/
theorem draft_mutation_pool_clearance :
    ∃ k old new, Wrote (Shop.runtime 3) Shop.clearance Shop.overdraw k old new Shop.overdrawn ∧
      ∀ o ∈ Shop.overdrawn.commercialPrices, o.pk = new.commercialOfferId →
        (new.quantityInUnits ≤ Shop.overdrawn.poolCapacity (Shop.runtime 3).now
            (listOrderableBatchesForOffer (Shop.runtime 3) Shop.overdrawn o .eur)
          ↔ Shop.overdraw.KeepsToPool (Shop.runtime 3) Shop.clearance old o) := by
  have hok : Shop.overdraw.run (Shop.runtime 3) Shop.clearance = .ok Shop.overdrawn :=
    Db.commit_eq (by decide +kernel)
  obtain ⟨ms, hreach⟩ := Shop.clearance_run
  obtain ⟨k, old, new, hw, -, hpool⟩ :=
    draft_mutation_pool hreach Shop.clearance_offers Shop.clearance_fit hok
  exact ⟨k, old, new, hw, fun o ho hpk => (hpool o ho hpk).1⟩

end SwedeSweets
