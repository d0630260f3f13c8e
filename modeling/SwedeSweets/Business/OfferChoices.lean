import SwedeSweets.Guarantees.Catalog

namespace SwedeSweets

open Relational Fallible

/-!
# Offer choices

The offers an order form shows and the units it lets staff enter for each
(`Business.buildBusinessOfferChoiceContext`): those of the catalog, and for an order that is
placed already its own units on top.  `Business.get?_choiceUnits` says what the figures are.
-/

/-- Selectable BUSINESS offers and their order-adjusted availability. -/
structure BusinessOfferChoiceContext where
  queryset : List CommercialPrice
  availableUnitsByOfferId : Dict ℕ ℤ

namespace Business

/-- `available_units_by_offer_id[offer.commercial_price_id] = offer.available_units`. -/
def catalogUnits (catalog : List CatalogProduct) : Dict ℕ ℤ :=
  (catalog.flatMap CatalogProduct.offers).foldl
    (fun units offer => units.set offer.commercialPriceId offer.availableUnits) Dict.empty

/-- The units of an order by offer. -/
def existingQuantityByOfferId (lines : List OrderLine) : Dict ℕ ℤ :=
  Dict.accumulate (lines.map (fun l => (l.commercialOfferId, (l.quantityInUnits : ℤ))))

/-- The filters on an existing offer that remains a valid selection. -/
def isCommerciallyEligible (db : Db) (o : CommercialPrice) : Bool :=
  o.channel = .business && o.enabled && productActive db o.productId
    && (o.batchId.isNone || o.hasAmount .eur)

/-- Existing offers that remain valid BUSINESS selections; stock is not looked at. -/
def commerciallyEligibleBusinessOfferIds (db : Db) (offerIds : List ℕ) : List ℕ :=
  (db.commercialPrices.select (fun o => offerIds.contains o.pk && isCommerciallyEligible db o)).map
    CommercialPrice.pk

/-- Add the units an order has to those of the catalog. -/
def addExistingUnits (existing : Dict ℕ ℤ) (units : Dict ℕ ℤ) (offerIds : List ℕ) : Dict ℕ ℤ :=
  offerIds.foldl (fun units offerId =>
    units.set offerId ((units.get? offerId).getD 0 + existing.getD offerId 0)) units

/-- The figures of the form for an order that may be placed already. -/
def choiceUnits (db : Db) (catalog : List CatalogProduct) : Option Order → Dict ℕ ℤ
  | none => catalogUnits catalog
  | some order =>
      if order.status = .draft then catalogUnits catalog
      else
        let existing := existingQuantityByOfferId (db.orderLines order.pk)
        addExistingUnits existing (catalogUnits catalog)
          (commerciallyEligibleBusinessOfferIds db existing.keys)

/-- `order_by("product__internal_number", "product__brand", "product__name", "product_id",
    "batch_id", "id")`. -/
def choiceOrder (rt : Runtime) (db : Db) (a b : CommercialPrice) : Prop :=
  match db.products.get? a.productId, db.products.get? b.productId with
  | some p, some q =>
      optionThen p.internalNumber q.internalNumber (textThen rt p.brand q.brand
        (textThen rt p.name q.name (commercialPriceOrder a b)))
  | _, _ => commercialPriceOrder a b

instance (rt : Runtime) (db : Db) (a b : CommercialPrice) : Decidable (choiceOrder rt db a b) := by
  unfold choiceOrder
  split <;> infer_instance

/-- Build offer choices for BUSINESS order creation or editing; the selectable offers are those
    with a figure. -/
def buildBusinessOfferChoiceContext (rt : Runtime) (db : Db) (order : Option Order) :
    Result BusinessOfferChoiceContext := do
  let catalog ← listBusinessCatalogProducts rt db
  let units := choiceUnits db catalog order
  let queryset := ((listCommercialPrices db .business).filter
    (fun o => o.enabled && units.keys.contains o.pk)).insertionSort (choiceOrder rt db)
  return ⟨queryset, units⟩

/-! ### The figures -/

variable {rt : Runtime} {db : Db}

/-- An eligible offer is a sellable one of the business channel. -/
theorem isCommerciallyEligible_iff {o : CommercialPrice} :
    isCommerciallyEligible db o = true ↔ o.channel = .business ∧ o.Sellable db := by
  unfold isCommerciallyEligible CommercialPrice.Sellable
  simp only [Bool.and_eq_true, Bool.or_eq_true, decide_eq_true_eq, Option.isNone_iff_eq_none]
  constructor
  · rintro ⟨⟨⟨hch, henabled⟩, hactive⟩, hbatch⟩
    exact ⟨hch, hactive, henabled, fun hne => hbatch.resolve_left hne⟩
  · rintro ⟨hch, hactive, henabled, hamount⟩
    exact ⟨⟨⟨hch, henabled⟩, hactive⟩, or_iff_not_imp_left.mpr hamount⟩

/-- Which of the given offers are eligible. -/
theorem mem_eligibleIds {offerIds : List ℕ} {k : ℕ} :
    k ∈ commerciallyEligibleBusinessOfferIds db offerIds ↔ k ∈ offerIds
      ∧ ∃ o ∈ db.commercialPrices, o.pk = k ∧ o.channel = .business ∧ o.Sellable db := by
  unfold commerciallyEligibleBusinessOfferIds
  simp only [List.mem_map, Table.mem_select, Bool.and_eq_true, List.contains_iff_mem,
    isCommerciallyEligible_iff]
  constructor
  · rintro ⟨o, ⟨ho, hmem, hch, hs⟩, rfl⟩
    exact ⟨hmem, o, ho, rfl, hch, hs⟩
  · rintro ⟨hmem, o, ho, rfl, hch, hs⟩
    exact ⟨o, ⟨ho, hmem, hch, hs⟩, rfl⟩

/-- The units of an order under an offer. -/
def unitsUnder (lines : List OrderLine) (offerId : ℕ) : ℕ :=
  (lines.map (fun l => if l.commercialOfferId = offerId then l.quantityInUnits else 0)).sum

/-- What the lines already have under an offer. -/
theorem getD_existingQuantity (lines : List OrderLine) (k : ℕ) :
    (existingQuantityByOfferId lines).getD k 0 = (unitsUnder lines k : ℤ) := by
  unfold existingQuantityByOfferId unitsUnder
  rw [Dict.getD_accumulate, List.map_map]
  induction lines with
  | nil => rfl
  | cons l ls ih =>
    rw [List.map_cons, List.map_cons, List.sum_cons, List.sum_cons, ih]
    by_cases h : l.commercialOfferId = k <;> simp [h]

/-- The offers that the lines are for. -/
theorem mem_keys_existingQuantity {lines : List OrderLine} {k : ℕ} :
    k ∈ (existingQuantityByOfferId lines).keys ↔ ∃ l ∈ lines, l.commercialOfferId = k := by
  unfold existingQuantityByOfferId
  rw [Dict.mem_keys_accumulate, List.map_map]
  exact List.mem_map

/-- An offer without a line has no units on the order. -/
theorem unitsUnder_eq_zero {lines : List OrderLine} {k : ℕ}
    (h : ∀ l ∈ lines, l.commercialOfferId ≠ k) : unitsUnder lines k = 0 := by
  unfold unitsUnder
  rw [List.sum_eq_zero_iff]
  intro v hv
  obtain ⟨l, hl, rfl⟩ := List.mem_map.mp hv
  exact if_neg (h l hl)

/-- The units the catalog shows under an offer are the free units of its pool, if there are
    any. -/
theorem get?_catalogUnits (hc : OfferConstraints db) (hfit : ReservationsFit rt.now db)
    {catalog : List CatalogProduct} (hok : listBusinessCatalogProducts rt db = .ok catalog)
    {k : ℕ} {n : ℤ} :
    (catalogUnits catalog).get? k = some n ↔ ∃ o ∈ db.commercialPrices, o.pk = k
      ∧ o.channel = .business ∧ o.Sellable db
      ∧ 0 < db.poolCapacity rt.now (listOrderableBatchesForOffer rt db o .eur)
      ∧ n = db.poolCapacity rt.now (listOrderableBatchesForOffer rt db o .eur) := by
  have hentry : ∀ co ∈ catalog.flatMap CatalogProduct.offers,
      ∃ o ∈ db.commercialPrices, ∃ p, Entry rt db p co o := by
    intro co hco
    obtain ⟨row, hrow, hco⟩ := List.mem_flatMap.mp hco
    obtain ⟨o, ho, hentry⟩ := entry_of_listed hc hfit hok hrow hco
    exact ⟨o, ho, _, hentry⟩
  -- an offer that is listed twice shows the same units
  have hsame : ∀ x ∈ catalog.flatMap CatalogProduct.offers,
      ∀ y ∈ catalog.flatMap CatalogProduct.offers, x.commercialPriceId = y.commercialPriceId →
        x.availableUnits = y.availableUnits := by
    intro x hx y hy hxy
    obtain ⟨o, ho, p, hxo⟩ := hentry x hx
    obtain ⟨o', ho', p', hyo⟩ := hentry y hy
    have heq : o = o' := Table.eq_of_pk_eq (t := db.commercialPrices) ho ho'
      (hxo.offer.symm.trans (hxy.trans hyo.offer))
    rw [hxo.units, hyo.units, heq]
  unfold catalogUnits
  rw [Dict.get?_foldl_set hsame]
  constructor
  · rintro (⟨co, hco, hpk, hn⟩ | ⟨-, hd⟩)
    · obtain ⟨o, ho, p, h⟩ := hentry co hco
      exact ⟨o, ho, h.offer.symm.trans hpk, h.channel, h.sellable, h.free, hn ▸ h.units⟩
    · cases hd
  -- an offer with free units is listed under its product
  · rintro ⟨o, ho, rfl, hch, hs, hpos, rfl⟩
    obtain ⟨co, hco, hpk⟩ : ∃ co ∈ catalog.flatMap CatalogProduct.offers,
        co.commercialPriceId = o.pk := by
      have hstd := standardOffers_of_catalog hok
      rw [listBusinessCatalogProducts_eq hstd, Except.ok.injEq] at hok
      subst hok
      have hp := orderable_of_pool hc hfit ho hpos
      obtain ⟨p, hproduct, hpk, hactive⟩ := productActive_iff.mp hs.1
      rw [← hpk] at hp
      have hlisted : p ∈ listCatalogProducts rt db (candidateProductIds rt db) :=
        mem_listCatalogProducts.mpr ⟨hproduct, hactive, mem_candidateProductIds.mpr hp⟩
      obtain ⟨std, hfound⟩ := hstd p hlisted
      obtain ⟨co, hco, hcopk⟩ := mem_of_sellable hc hfit ho hch hs hpos (hpk ▸ hfound)
      rw [← hpk] at hco
      exact ⟨co, List.mem_flatMap.mpr ⟨_, mem_catalog.mpr
        ⟨p, hproduct, hactive, hp, std, hfound, List.ne_nil_of_mem hco, rfl⟩, hco⟩, hcopk⟩
    obtain ⟨o', ho', p, h⟩ := hentry co hco
    have heq : o' = o := Table.eq_of_pk_eq (t := db.commercialPrices) ho' ho
      (h.offer.symm.trans hpk)
    exact Or.inl ⟨co, hco, hpk, heq ▸ h.units⟩

/-- **The figures.** The form shows an offer that may be sold when its pool has free units or
    the order has a line for it, with the free units and those of the order. -/
theorem get?_choiceUnits (hc : OfferConstraints db) (hfit : ReservationsFit rt.now db)
    {catalog : List CatalogProduct} (hok : listBusinessCatalogProducts rt db = .ok catalog)
    {order : Order} (hst : order.status ≠ .draft) {k : ℕ} {n : ℤ} :
    (choiceUnits db catalog (some order)).get? k = some n ↔ ∃ o ∈ db.commercialPrices, o.pk = k
      ∧ o.channel = .business ∧ o.Sellable db
      ∧ (0 < db.poolCapacity rt.now (listOrderableBatchesForOffer rt db o .eur)
        ∨ ∃ l ∈ db.orderLines order.pk, l.commercialOfferId = k)
      ∧ n = db.poolCapacity rt.now (listOrderableBatchesForOffer rt db o .eur)
        + unitsUnder (db.orderLines order.pk) k := by
  have hcatalog := fun {n : ℤ} => get?_catalogUnits hc hfit hok (k := k) (n := n)
  have hnd : (commerciallyEligibleBusinessOfferIds db
      (existingQuantityByOfferId (db.orderLines order.pk)).keys).Nodup :=
    Table.select_nodup_pk db.commercialPrices _
  have hid : k ∈ commerciallyEligibleBusinessOfferIds db
      (existingQuantityByOfferId (db.orderLines order.pk)).keys
      ↔ (∃ l ∈ db.orderLines order.pk, l.commercialOfferId = k)
        ∧ ∃ o ∈ db.commercialPrices, o.pk = k ∧ o.channel = .business ∧ o.Sellable db := by
    rw [mem_eligibleIds, mem_keys_existingQuantity]
  have hunits : choiceUnits db catalog (some order) = addExistingUnits
      (existingQuantityByOfferId (db.orderLines order.pk)) (catalogUnits catalog)
      (commerciallyEligibleBusinessOfferIds db
        (existingQuantityByOfferId (db.orderLines order.pk)).keys) := if_neg hst
  rw [hunits]
  unfold addExistingUnits
  rw [Dict.get?_foldl_update (f := fun offerId units => units.getD 0
    + (existingQuantityByOfferId (db.orderLines order.pk)).getD offerId 0) hnd, getD_existingQuantity]
  by_cases hk : (∃ l ∈ db.orderLines order.pk, l.commercialOfferId = k)
      ∧ ∃ o ∈ db.commercialPrices, o.pk = k ∧ o.channel = .business ∧ o.Sellable db
  · -- an offer of a line: its free units, if any, and the units of the line
    rw [if_pos (hid.mpr hk), Option.some.injEq]
    obtain ⟨hline, o, ho, rfl, hch, hs⟩ := hk
    have hfree : ((catalogUnits catalog).get? o.pk).getD 0
        = db.poolCapacity rt.now (listOrderableBatchesForOffer rt db o .eur) := by
      by_cases hpos : 0 < db.poolCapacity rt.now (listOrderableBatchesForOffer rt db o .eur)
      · rw [hcatalog.mpr ⟨o, ho, rfl, hch, hs, hpos, rfl⟩]
        rfl
      · have hnone : (catalogUnits catalog).get? o.pk = none := by
          rw [Option.eq_none_iff_forall_ne_some]
          intro n hn
          obtain ⟨o', ho', hpk, -, -, hpos', -⟩ := hcatalog.mp hn
          have heq : o' = o := Table.eq_of_pk_eq (t := db.commercialPrices) ho' ho hpk
          exact hpos (heq ▸ hpos')
        rw [hnone]
        show (0 : ℤ) = _
        omega
    rw [hfree]
    constructor
    · rintro rfl
      exact ⟨o, ho, rfl, hch, hs, Or.inr hline, rfl⟩
    · rintro ⟨o', ho', hpk, -, -, -, rfl⟩
      have heq : o' = o := Table.eq_of_pk_eq (t := db.commercialPrices) ho' ho hpk
      rw [heq]
  · rw [if_neg (fun h => hk (hid.mp h)), hcatalog]
    -- an offer without a line: the order has nothing to add
    refine exists_congr (fun o => and_congr_right (fun ho => and_congr_right (fun hpk =>
      and_congr_right (fun hch => and_congr_right (fun hs => ?_)))))
    have hnone : ∀ l ∈ db.orderLines order.pk, l.commercialOfferId ≠ k :=
      fun l hl hlk => hk ⟨⟨l, hl, hlk⟩, o, ho, hpk, hch, hs⟩
    rw [unitsUnder_eq_zero hnone]
    simp only [Nat.cast_zero, add_zero]
    refine and_congr_left (fun _ => ⟨Or.inl, fun h => h.resolve_right ?_⟩)
    rintro ⟨l, hl, hlk⟩
    exact hnone l hl hlk

end Business

end SwedeSweets
