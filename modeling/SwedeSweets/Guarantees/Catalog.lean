import SwedeSweets.Business.Selectors
import SwedeSweets.Guarantees.Stock
import SwedeSweets.Pricing.Pools

namespace SwedeSweets

open Relational Fallible

/-!
# The catalog promises what can be reserved

The bulk aggregates of the catalog against the pools of its offers:

* `units_batchOffers` — the units sold through batch offers of a product are the free units
  of the batches its product-wide pool leaves out;
* `mem_catalog` — what the catalog lists, product by product;
* `catalog_promises` — an offer is listed iff it is sellable and its pool has free units, and
  a plan over its pool succeeds iff it asks for no more than the units listed.
-/

/-- The constraints of the offer table, and its standard business offers. -/
structure OfferTable (db : Db) : Prop where
  uniqueProductPrice : ∀ o ∈ db.commercialPrices, ∀ o' ∈ db.commercialPrices, o.batchId = none →
    o'.batchId = none → o.productId = o'.productId → o.channel = o'.channel → o = o'
  uniqueBatchPrice : ∀ o ∈ db.commercialPrices, ∀ o' ∈ db.commercialPrices, o.batchId ≠ none →
    o.batchId = o'.batchId → o.channel = o'.channel → o = o'
  batchProduct : ∀ o ∈ db.commercialPrices, ∀ b ∈ db.batches, o.batchId = some b.pk →
    b.productId = o.productId
  standard : ∀ p ∈ db.products, ∃ o ∈ db.commercialPrices, o.productId = p.pk
    ∧ o.channel = .business ∧ o.batchId = none

/-- The constraints the catalog relies on. -/
theorem OfferTable.constraints {db : Db} (h : OfferTable db) : OfferConstraints db :=
  ⟨h.uniqueProductPrice, h.uniqueBatchPrice, h.batchProduct⟩

/-- The offer may be sold: its product is active, it is enabled, and a batch offer is priced
    in EUR. -/
def CommercialPrice.Sellable (db : Db) (o : CommercialPrice) : Prop :=
  productActive db o.productId = true ∧ o.enabled = true
    ∧ (o.batchId ≠ none → o.hasAmount .eur = true)

/-- The offer appears in the catalog. -/
def Listed (catalog : List CatalogProduct) (o : CommercialPrice) : Prop :=
  ∃ row ∈ catalog, ∃ offer ∈ row.offers, offer.commercialPriceId = o.pk

/-! ### The data of the catalog -/

section

variable (rt : Runtime) (db : Db)

/-- The products with orderable units. -/
def candidateProductIds : List ℕ :=
  ((orderableQuantityByProductId rt db).entries.filter (fun e => 0 < e.2)).map Prod.fst

/-- The business prices of these products. -/
def catalogPrices : List CommercialPrice :=
  (listCommercialPrices db .business).filter
    (fun o => (candidateProductIds rt db).contains o.productId)

/-- The standard business offer the catalog finds for a product. -/
def catalogStandardOffer (productId : ℕ) : Option CommercialPrice :=
  ((catalogPrices rt db).filter
    (fun o => o.batchId = none ∧ o.productId = productId)).getLast?

def catalogBatchUnits : Dict ℕ ℤ :=
  orderableQuantityByBatchPk rt db
    ((batchPriceCandidates (catalogPrices rt db)).map (fun c => c.2.1))

def catalogBatchOffers : List (ℕ × CatalogOffer) :=
  batchOffers (catalogBatchUnits rt db) (batchPriceCandidates (catalogPrices rt db))

/-- The units the catalog sells through batch offers of a product. -/
def catalogBatchOfferUnits (productId : ℕ) : ℤ :=
  (Dict.accumulate ((catalogBatchOffers rt db).map (fun e => (e.1, e.2.availableUnits)))).getD
    productId 0

/-- The row of a product with its standard offer. -/
def catalogRow (standardOffer : CommercialPrice) (product : Product) : Option CatalogProduct :=
  catalogProduct ((orderableQuantityByProductId rt db).getD product.pk 0)
    (catalogBatchOfferUnits rt db product.pk) standardOffer
    (((catalogBatchOffers rt db).filter (fun e => e.1 = product.pk)).map Prod.snd) product

/-- The entry of a product, if it has a standard offer and something to offer. -/
def catalogEntry (product : Product) : Option CatalogProduct :=
  (catalogStandardOffer rt db product.pk).bind (fun o => catalogRow rt db o product)

end

variable {rt : Runtime} {db : Db}

/-- The candidate products have orderable units. -/
theorem mem_candidateProductIds {p : ℕ} :
    p ∈ candidateProductIds rt db ↔ 0 < (orderableQuantityByProductId rt db).getD p 0 := by
  unfold candidateProductIds
  simp only [List.mem_map, List.mem_filter, decide_eq_true_eq]
  constructor
  · rintro ⟨e, ⟨he, hpos⟩, rfl⟩
    rwa [Dict.getD_of_mem he]
  · intro hpos
    obtain ⟨e, he, rfl⟩ := Dict.exists_of_getD_ne (Int.ne_of_gt hpos)
    rw [Dict.getD_of_mem he] at hpos
    exact ⟨e, ⟨he, hpos⟩, rfl⟩

/-- The offers looked at are the BUSINESS offers of candidate products. -/
theorem mem_catalogPrices {o : CommercialPrice} :
    o ∈ catalogPrices rt db ↔ o ∈ db.commercialPrices ∧ o.channel = .business
      ∧ 0 < (orderableQuantityByProductId rt db).getD o.productId 0 := by
  unfold catalogPrices listCommercialPrices
  rw [List.mem_filter, (List.perm_insertionSort _ _).mem_iff, Table.mem_select,
    List.contains_iff_mem, mem_candidateProductIds, decide_eq_true_eq, and_assoc]

/-- A candidate is an enabled batch offer with an amount in EUR. -/
theorem batchPriceCandidate_eq_some {o : CommercialPrice}
    {c : CommercialPrice × ℕ × PriceAmount} :
    batchPriceCandidate o = some c ↔ c.1 = o ∧ o.batchId = some c.2.1 ∧ o.enabled = true
      ∧ o.findAmount .eur = some c.2.2 := by
  obtain ⟨x, k, amount⟩ := c
  unfold batchPriceCandidate
  -- A product-wide offer is no candidate.
  cases hk : o.batchId with
  | none => simp
  | some j =>
    by_cases he : o.enabled = true
    · simp only [he, if_true, Option.map_eq_some_iff, Prod.mk.injEq, Option.some.injEq, true_and]
      constructor
      · rintro ⟨a, ha, rfl, rfl, rfl⟩
        exact ⟨rfl, rfl, ha⟩
      · rintro ⟨rfl, rfl, ha⟩
        exact ⟨amount, ha, rfl, rfl, rfl⟩
    · simp [he]

/-- The candidates among some offers. -/
theorem mem_batchPriceCandidates {os : List CommercialPrice}
    {c : CommercialPrice × ℕ × PriceAmount} :
    c ∈ batchPriceCandidates os ↔ c.1 ∈ os ∧ c.1.batchId = some c.2.1 ∧ c.1.enabled = true
      ∧ c.1.findAmount .eur = some c.2.2 := by
  unfold batchPriceCandidates
  rw [List.mem_filterMap]
  constructor
  · rintro ⟨o, ho, h⟩
    obtain ⟨rfl, hc⟩ := batchPriceCandidate_eq_some.mp h
    exact ⟨ho, hc⟩
  · rintro ⟨ho, hc⟩
    exact ⟨c.1, ho, batchPriceCandidate_eq_some.mpr ⟨rfl, hc⟩⟩

/-- An amount is found iff there is one. -/
theorem hasAmount_iff {o : CommercialPrice} {currency : Currency} :
    o.hasAmount currency = true ↔ ∃ amount, o.findAmount currency = some amount := by
  unfold CommercialPrice.hasAmount CommercialPrice.findAmount
  rw [← Option.isSome_iff_exists, List.find?_isSome, List.any_eq_true]

/-- The catalog finds the standard offer of a product with orderable units. -/
theorem catalogStandardOffer_eq (h : OfferConstraints db) {p : ℕ}
    (hp : 0 < (orderableQuantityByProductId rt db).getD p 0) {o : CommercialPrice}
    (ho : o ∈ db.commercialPrices) (hproduct : o.productId = p) (hch : o.channel = .business)
    (hstd : o.batchId = none) : catalogStandardOffer rt db p = some o := by
  unfold catalogStandardOffer
  have hmem : o ∈ (catalogPrices rt db).filter
      (fun o => o.batchId = none ∧ o.productId = p) :=
    List.mem_filter.mpr ⟨mem_catalogPrices.mpr ⟨ho, hch, hproduct ▸ hp⟩, by simp [hstd, hproduct]⟩
  -- The dictionary keeps the last standard offer of a product, and there is one at most.
  cases hlast : ((catalogPrices rt db).filter
      (fun o => o.batchId = none ∧ o.productId = p)).getLast? with
  | none =>
    rw [List.getLast?_eq_none_iff] at hlast
    rw [hlast] at hmem
    cases hmem
  | some x =>
    obtain ⟨hx, hxp⟩ := List.mem_filter.mp (List.mem_of_getLast? hlast)
    obtain ⟨hx, hxch, -⟩ := mem_catalogPrices.mp hx
    simp only [decide_eq_true_eq] at hxp
    rw [h.uniqueProductPrice x hx o ho hxp.1 hstd (hxp.2.trans hproduct.symm)
      (hxch.trans hch.symm)]

/-! ### Units -/

/-- A batch is a candidate's iff the product-wide pool leaves it out. -/
theorem mem_candidateBatches (h : OfferConstraints db) {b : InventoryBatch} (hb : b ∈ db.batches)
    (hp : 0 < (orderableQuantityByProductId rt db).getD b.productId 0) :
    b.pk ∈ (batchPriceCandidates (catalogPrices rt db)).map (fun c => c.2.1) ↔
      isExcludedBatch db .business .eur b.pk = true := by
  unfold isExcludedBatch
  rw [List.mem_map, List.any_eq_true]
  simp only [Bool.and_eq_true, decide_eq_true_eq, and_assoc]
  -- The candidates' conditions are those of the exclusion, read from the offers once.
  constructor
  · rintro ⟨c, hc, hk⟩
    obtain ⟨ho, hbatch, henabled, hamount⟩ := mem_batchPriceCandidates.mp hc
    obtain ⟨ho, hch, -⟩ := mem_catalogPrices.mp ho
    exact ⟨c.1, ho, hch, henabled, hasAmount_iff.mpr ⟨_, hamount⟩, hk ▸ hbatch⟩
  · rintro ⟨o, ho, hch, henabled, hamount, hbatch⟩
    obtain ⟨amount, hamount⟩ := hasAmount_iff.mp hamount
    refine ⟨(o, b.pk, amount), mem_batchPriceCandidates.mpr ⟨?_, hbatch, henabled, hamount⟩, rfl⟩
    exact mem_catalogPrices.mpr ⟨ho, hch, h.batchProduct o ho b hb hbatch ▸ hp⟩

/-- No two candidates are for one batch. -/
theorem candidates_nodup (h : OfferConstraints db) :
    ((batchPriceCandidates (catalogPrices rt db)).map (fun c => c.2.1)).Nodup := by
  have hprices : ∀ o ∈ catalogPrices rt db, o ∈ db.commercialPrices ∧ o.channel = .business :=
    fun o ho => ⟨(mem_catalogPrices.mp ho).1, (mem_catalogPrices.mp ho).2.1⟩
  have hnd : (catalogPrices rt db).Nodup := by
    refine List.Nodup.filter _ ((List.perm_insertionSort _ _).nodup_iff.mpr ?_)
    exact List.Nodup.of_map Row.pk (db.commercialPrices.select_nodup_pk _)
  generalize catalogPrices rt db = os at *
  unfold batchPriceCandidates
  -- By induction on the offers: no two offers of a channel are for one batch.
  induction os with
  | nil => simp
  | cons o os ih =>
    rw [List.nodup_cons] at hnd
    have ih := ih (fun x hx => hprices x (List.mem_cons_of_mem _ hx)) hnd.2
    cases hc : batchPriceCandidate o with
    | none =>
      rw [List.filterMap_cons_none hc]
      exact ih
    | some c =>
      rw [List.filterMap_cons_some hc, List.map_cons, List.nodup_cons]
      refine ⟨fun hmem => ?_, ih⟩
      obtain ⟨hco, hck, -⟩ := batchPriceCandidate_eq_some.mp hc
      obtain ⟨d, hd, hdk⟩ := List.mem_map.mp hmem
      obtain ⟨hdo, hdk', -⟩ := mem_batchPriceCandidates.mp hd
      obtain ⟨ho, hch⟩ := hprices o (List.mem_cons_self ..)
      obtain ⟨hd', hdch⟩ := hprices d.1 (List.mem_cons_of_mem _ hdo)
      have hbatch : o.batchId = d.1.batchId := by rw [hck, hdk', hdk]
      have heq := h.uniqueBatchPrice o ho d.1 hd' (by rw [hck]; simp) hbatch
        (hch.trans hdch.symm)
      exact hnd.1 (heq ▸ hdo)

/-- The units of a candidate are the free units of its batch, if that is orderable. -/
theorem units_candidate {c : CommercialPrice × ℕ × PriceAmount}
    (hc : c ∈ batchPriceCandidates (catalogPrices rt db)) :
    (catalogBatchUnits rt db).getD c.2.1 0
      = db.poolCapacity rt.now (fun b => b.pk = c.2.1 && isOrderable rt.today b) :=
  getD_orderableQuantityByBatchPk rt db (List.mem_map.mpr ⟨c, hc, rfl⟩)

/-- The units sold through batch offers, as a sum over all candidates of the product. -/
theorem catalogBatchOfferUnits_eq (p : ℕ) :
    catalogBatchOfferUnits rt db p =
      (((batchPriceCandidates (catalogPrices rt db)).map (fun c => if c.1.productId = p then
        db.poolCapacity rt.now (fun b => b.pk = c.2.1 && isOrderable rt.today b) else 0)).sum : ℕ) := by
  unfold catalogBatchOfferUnits catalogBatchOffers batchOffers
  rw [Dict.getD_accumulate]
  have hunits : ∀ c ∈ batchPriceCandidates (catalogPrices rt db), _ := fun _ hc => units_candidate hc
  generalize batchPriceCandidates (catalogPrices rt db) = cs at *
  -- By induction on the candidates; one without units adds nothing to the sum.
  induction cs with
  | nil => rfl
  | cons c cs ih =>
    have ih := ih (fun d hd => hunits d (List.mem_cons_of_mem _ hd))
    have hc := hunits c (List.mem_cons_self ..)
    rw [List.map_cons, List.sum_cons, Nat.cast_add, ← ih]
    by_cases hpos : 0 < (catalogBatchUnits rt db).getD c.2.1 0
    · rw [List.filter_cons_of_pos (by simpa using hpos)]
      simp only [List.map_cons, List.sum_cons]
      rw [show (batchOffer ((catalogBatchUnits rt db).getD c.2.1 0) c).availableUnits
        = (catalogBatchUnits rt db).getD c.2.1 0 from rfl, hc]
      by_cases hp : c.1.productId = p <;> simp [hp]
    · rw [List.filter_cons_of_neg (by simpa using hpos)]
      have hzero : db.poolCapacity rt.now (fun b => b.pk = c.2.1 && isOrderable rt.today b) = 0 := by
        omega
      simp [hzero]

/-- **Batch offers.** The units sold through batch offers of a product are the free units of
    the batches its product-wide pool leaves out. -/
theorem units_batchOffers (h : OfferConstraints db) {p : ℕ}
    (hp : 0 < (orderableQuantityByProductId rt db).getD p 0) :
    catalogBatchOfferUnits rt db p = db.poolCapacity rt.now (fun b =>
      listOrderableBatchesForProduct rt.today p b && isExcludedBatch db .business .eur b.pk) := by
  rw [catalogBatchOfferUnits_eq, Nat.cast_inj]
  have hexpand : ∀ c ∈ batchPriceCandidates (catalogPrices rt db),
      (if c.1.productId = p then
        db.poolCapacity rt.now (fun b => b.pk = c.2.1 && isOrderable rt.today b) else 0)
      = (db.batches.rows.map (fun b => if c.2.1 = b.pk then
          (if listOrderableBatchesForProduct rt.today p b = true then db.freeUnits rt.now b else 0)
          else 0)).sum := by
    intro c hc
    obtain ⟨ho, hbatch, -, -⟩ := mem_batchPriceCandidates.mp hc
    have ho := (mem_catalogPrices.mp ho).1
    have hproduct : ∀ b ∈ db.batches, c.2.1 = b.pk → b.productId = c.1.productId :=
      fun b hb hk => h.batchProduct c.1 ho b hb (hk ▸ hbatch)
    rw [Db.poolCapacity_eq]
    unfold Table.total
    by_cases hcp : c.1.productId = p
    · rw [if_pos hcp]
      refine congrArg List.sum (List.map_congr_left (fun b hb => ?_))
      by_cases hk : c.2.1 = b.pk
      · have hbp : b.productId = p := (hproduct b hb hk).trans hcp
        simp [hk, hbp, listOrderableBatchesForProduct]
      · have hk' : ¬ b.pk = c.2.1 := fun he => hk he.symm
        simp [hk, hk']
    · rw [if_neg hcp, eq_comm, List.sum_eq_zero_iff]
      intro v hv
      obtain ⟨b, hb, rfl⟩ := List.mem_map.mp hv
      by_cases hk : c.2.1 = b.pk
      · have hbp : ¬ b.productId = p := fun he => hcp ((hproduct b hb hk).symm.trans he)
        simp [hk, hbp, listOrderableBatchesForProduct]
      · simp [hk]
  rw [List.map_congr_left hexpand, Sums.sum_comm, Db.poolCapacity_eq]
  unfold Table.total
  refine congrArg List.sum (List.map_congr_left (fun b hb => ?_))
  -- each batch is counted for its one candidate
  rw [Sums.sum_const_key (candidates_nodup h)]
  by_cases hq : listOrderableBatchesForProduct rt.today p b = true
  · have hbp : b.productId = p := by
      simp only [listOrderableBatchesForProduct, Bool.and_eq_true, decide_eq_true_eq] at hq
      exact hq.1
    have hmem := mem_candidateBatches h hb (hbp ▸ hp)
    by_cases hex : isExcludedBatch db .business .eur b.pk = true
    · rw [if_pos (hmem.mpr hex)]; simp [hq, hex]
    · rw [if_neg (fun hc => hex (hmem.mp hc))]; simp [hex]
  · simp [hq]

/-- The orderable units of a product split into its product-wide pool and the rest. -/
theorem standard_units (h : OfferConstraints db) (hfit : ReservationsFit rt.now db) {p : ℕ}
    (hp : 0 < (orderableQuantityByProductId rt db).getD p 0) :
    max ((orderableQuantityByProductId rt db).getD p 0 - catalogBatchOfferUnits rt db p) 0
      = db.poolCapacity rt.now (fun b => listOrderableBatchesForProduct rt.today p b
          && !isExcludedBatch db .business .eur b.pk) := by
  -- The orderable batches of a product: the excluded ones and the others.
  have hsplit : db.poolCapacity rt.now (listOrderableBatchesForProduct rt.today p)
      = db.poolCapacity rt.now (fun b => listOrderableBatchesForProduct rt.today p b
          && isExcludedBatch db .business .eur b.pk)
        + db.poolCapacity rt.now (fun b => listOrderableBatchesForProduct rt.today p b
          && !isExcludedBatch db .business .eur b.pk) := by
    simp only [Db.poolCapacity_eq]
    rw [← Table.total_add]
    refine Table.total_congr (fun b _ => ?_)
    by_cases hq : listOrderableBatchesForProduct rt.today p b = true <;>
      by_cases hex : isExcludedBatch db .business .eur b.pk = true <;> simp [hq, hex]
  rw [getD_orderableQuantityByProductId hfit, units_batchOffers h hp, hsplit]
  push_cast
  omega

/-! ### The catalog -/

/-- The products listed are the active ones asked for. -/
theorem mem_listCatalogProducts {productIds : List ℕ} {p : Product} :
    p ∈ listCatalogProducts rt db productIds ↔
      p ∈ db.products ∧ p.active = true ∧ p.pk ∈ productIds := by
  unfold listCatalogProducts
  rw [(List.perm_insertionSort _ _).mem_iff, Table.mem_select, Bool.and_eq_true,
    List.contains_iff_mem]

/-- Every product with orderable units has its standard offer. -/
theorem exists_catalogStandardOffer (h : OfferTable db) {p : Product} (hp : p ∈ db.products)
    (hpos : 0 < (orderableQuantityByProductId rt db).getD p.pk 0) :
    ∃ o ∈ db.commercialPrices, o.productId = p.pk ∧ o.channel = .business ∧ o.batchId = none
      ∧ catalogStandardOffer rt db p.pk = some o := by
  obtain ⟨o, ho, hproduct, hch, hstd⟩ := h.standard p hp
  exact ⟨o, ho, hproduct, hch, hstd,
    catalogStandardOffer_eq h.constraints hpos ho hproduct hch hstd⟩

/-- The selector, in terms of the data named above. -/
theorem listBusinessCatalogProducts_def (rt : Runtime) (db : Db) :
    listBusinessCatalogProducts rt db =
      (if candidateProductIds rt db = [] then pure []
      else if listCatalogProducts rt db (candidateProductIds rt db) = [] then pure []
      else do
        let products := listCatalogProducts rt db (candidateProductIds rt db)
        let missing := products.filter (fun p => (catalogStandardOffer rt db p.pk).isNone)
        require (missing = []) (.runtimeError
          ("business catalog invariant violated: missing standard BUSINESS offer for "
            ++ String.intercalate ", " (missing.map Product.displayName)))
        let rows ← products.mapM (fun product => do
          let standardOffer ← orRaise (catalogStandardOffer rt db product.pk) .keyError
          return catalogRow rt db standardOffer product)
        return rows.filterMap id) := rfl

/-- Every product the catalog looks at has its standard offer. -/
def StandardOffers (rt : Runtime) (db : Db) : Prop :=
  ∀ p ∈ listCatalogProducts rt db (candidateProductIds rt db),
    ∃ o, catalogStandardOffer rt db p.pk = some o

/-- Every product the catalog lists has its standard offer. -/
theorem OfferTable.standardOffers (h : OfferTable db) : StandardOffers rt db := by
  intro p hp
  obtain ⟨hp, -, hpos⟩ := mem_listCatalogProducts.mp hp
  obtain ⟨o, -, -, -, -, ho⟩ := exists_catalogStandardOffer h hp (mem_candidateProductIds.mp hpos)
  exact ⟨o, ho⟩

/-- No ids, no products. -/
theorem listCatalogProducts_nil : listCatalogProducts rt db [] = [] := by
  refine List.eq_nil_iff_forall_not_mem.mpr (fun p hp => ?_)
  cases (mem_listCatalogProducts.mp hp).2.2

/-- The catalog returns, with one entry per active product with something to offer. -/
theorem listBusinessCatalogProducts_eq (h : StandardOffers rt db) :
    listBusinessCatalogProducts rt db = .ok
      ((listCatalogProducts rt db (candidateProductIds rt db)).filterMap (catalogEntry rt db)) := by
  rw [listBusinessCatalogProducts_def]
  unfold StandardOffers at h
  -- The two early returns give the empty catalog as well.
  by_cases hids : candidateProductIds rt db = []
  · rw [if_pos hids, hids, listCatalogProducts_nil]
    rfl
  rw [if_neg hids]
  generalize listCatalogProducts rt db (candidateProductIds rt db) = products at *
  by_cases hproducts : products = []
  · rw [if_pos hproducts, hproducts]
    rfl
  rw [if_neg hproducts]
  simp only [bind_eq_ok, require_eq_ok, exists_const, pure_eq_ok]
  refine ⟨?_, products.map (catalogEntry rt db), mapM_eq_map (fun p hp => ?_), ?_⟩
  · rw [List.filter_eq_nil_iff]
    intro p hp
    obtain ⟨o, ho⟩ := h p hp
    simp [ho]
  · obtain ⟨o, ho⟩ := h p hp
    simp only [bind_eq_ok, orRaise_eq_ok, pure_eq_ok, catalogEntry, ho]
    exact ⟨o, rfl, rfl⟩
  · rw [List.filterMap_map]
    rfl

/-- A catalog that returns found every standard offer it looked for. -/
theorem standardOffers_of_catalog {catalog : List CatalogProduct}
    (hok : listBusinessCatalogProducts rt db = .ok catalog) : StandardOffers rt db := by
  intro p hp
  rw [listBusinessCatalogProducts_def] at hok
  by_cases hids : candidateProductIds rt db = []
  · rw [hids, listCatalogProducts_nil] at hp
    cases hp
  rw [if_neg hids, if_neg (List.ne_nil_of_mem hp)] at hok
  simp only [bind_eq_ok, require_eq_ok, exists_const, List.filter_eq_nil_iff] at hok
  exact Option.ne_none_iff_exists'.mp (by simpa using hok.1 p hp)

/-! ### Offers and their pools -/

/-- The pool a batch offer draws from is its batch. -/
theorem pool_batch {o : CommercialPrice} {k : ℕ} (hs : o.Sellable db) (hk : o.batchId = some k) :
    listOrderableBatchesForOffer rt db o .eur = fun b => b.pk = k && isOrderable rt.today b := by
  unfold listOrderableBatchesForOffer
  rw [if_neg (by simp [hs.1, hs.2.1]), hk]

/-- The pool of a standard offer is the product without the batches that have an offer. -/
theorem pool_standard {o : CommercialPrice} (hs : o.Sellable db) (hch : o.channel = .business)
    (hstd : o.batchId = none) :
    listOrderableBatchesForOffer rt db o .eur = fun b =>
      listOrderableBatchesForProduct rt.today o.productId b
        && !isExcludedBatch db .business .eur b.pk := by
  unfold listOrderableBatchesForOffer
  rw [if_neg (by simp [hs.1, hs.2.1]), hstd, hch]

/-- A pool with free units shows in the orderable units of its product. -/
theorem orderable_of_pool (h : OfferConstraints db) (hfit : ReservationsFit rt.now db)
    {o : CommercialPrice} (ho : o ∈ db.commercialPrices)
    (hpos : 0 < db.poolCapacity rt.now (listOrderableBatchesForOffer rt db o .eur)) :
    0 < (orderableQuantityByProductId rt db).getD o.productId 0 := by
  rw [getD_orderableQuantityByProductId hfit, Nat.cast_pos]
  refine lt_of_lt_of_le hpos ?_
  rw [Db.poolCapacity_eq, Db.poolCapacity_eq]
  refine Table.total_mono (fun b hb => ?_)
  by_cases hq : listOrderableBatchesForOffer rt db o .eur b = true
  · have hproduct := h.productId_of_pool ho hb hq
    have horderable := isOrderable_of_offer hq
    rw [if_pos hq, if_pos (by simp [listOrderableBatchesForProduct, hproduct, horderable])]
  · rw [if_neg hq]
    exact Nat.zero_le _

/-- Planning over the pool of an offer succeeds iff its free units meet the request. -/
theorem plan_of_pool (h : OfferConstraints db) {o : CommercialPrice} (ho : o ∈ db.commercialPrices)
    {q : ℤ} (hq : 1 ≤ q) :
    (∃ picks, planBatchPicks
        ((lockedPool rt db (listOrderableBatchesForOffer rt db o .eur)).map
          InventoryBatch.availability) q
        (activeReservedQuantitiesByBatchPk rt.now db
          ((lockedPool rt db (listOrderableBatchesForOffer rt db o .eur)).map InventoryBatch.pk))
        = .ok picks)
      ↔ q ≤ db.poolCapacity rt.now (listOrderableBatchesForOffer rt db o .eur) := by
  simp only [planBatchPicks_eq_ok, capacity_availability]
  -- Every batch of the pool is of the offer's product.
  have hone : OneProduct ((lockedPool rt db (listOrderableBatchesForOffer rt db o .eur)).map
      InventoryBatch.availability) o.productId := by
    intro a ha
    obtain ⟨b, hb, rfl⟩ := List.mem_map.mp ha
    obtain ⟨hb, hpool⟩ := mem_lockedPool.mp hb
    exact h.productId_of_pool ho hb hpool
  have hphysical : ∀ a ∈ (lockedPool rt db (listOrderableBatchesForOffer rt db o .eur)).map
      InventoryBatch.availability, 0 ≤ a.physicalQuantity := by
    intro a ha
    obtain ⟨b, -, rfl⟩ := List.mem_map.mp ha
    exact Int.natCast_nonneg _
  constructor
  · rintro ⟨-, ⟨-, -, -, -, hcap⟩, -⟩
    exact hcap
  · intro hcap
    exact ⟨_, ⟨by omega, ⟨_, hone⟩, hphysical, activeReservedQuantities_nonneg _ _ _, hcap⟩, rfl⟩

/-! ### What a row offers -/

section

variable (rt db)

/-- The units left for the standard offer of a product. -/
def catalogStandardUnits (productId : ℕ) : ℤ :=
  max ((orderableQuantityByProductId rt db).getD productId 0
    - catalogBatchOfferUnits rt db productId) 0

/-- The offers of a product's row. -/
def catalogOffers (standardOffer : CommercialPrice) (productId : ℕ) : List CatalogOffer :=
  (if 0 < catalogStandardUnits rt db productId ∧ standardOffer.enabled = true then
    [buildStandardOffer (catalogStandardUnits rt db productId) standardOffer] else [])
  ++ ((catalogBatchOffers rt db).filter (fun e => e.1 = productId)).map Prod.snd

end

/-- A row is there as soon as it has an offer. -/
theorem catalogRow_eq_some {o : CommercialPrice} {p : Product} {row : CatalogProduct} :
    catalogRow rt db o p = some row ↔ catalogOffers rt db o p.pk ≠ []
      ∧ row = ⟨p, (orderableQuantityByProductId rt db).getD p.pk 0, catalogOffers rt db o p.pk⟩ := by
  have hdef : catalogRow rt db o p = if catalogOffers rt db o p.pk = [] then none else
      some ⟨p, (orderableQuantityByProductId rt db).getD p.pk 0, catalogOffers rt db o p.pk⟩ := rfl
  rw [hdef]
  by_cases hnil : catalogOffers rt db o p.pk = [] <;> simp [hnil, eq_comm]

/-- The offers of a row: the standard one with units left, then the batch offers with units. -/
theorem mem_catalogOffers {o : CommercialPrice} {p : ℕ} {co : CatalogOffer} :
    co ∈ catalogOffers rt db o p ↔
      (0 < catalogStandardUnits rt db p ∧ o.enabled = true
        ∧ co = buildStandardOffer (catalogStandardUnits rt db p) o)
      ∨ ∃ c ∈ batchPriceCandidates (catalogPrices rt db),
        0 < (catalogBatchUnits rt db).getD c.2.1 0 ∧ c.1.productId = p
          ∧ co = batchOffer ((catalogBatchUnits rt db).getD c.2.1 0) c := by
  unfold catalogOffers
  rw [List.mem_append]
  refine or_congr ?_ ?_
  · by_cases hstd : 0 < catalogStandardUnits rt db p ∧ o.enabled = true
    · rw [if_pos hstd, List.mem_singleton]
      exact ⟨fun hco => ⟨hstd.1, hstd.2, hco⟩, fun hco => hco.2.2⟩
    · rw [if_neg hstd]
      exact ⟨fun hco => absurd hco List.not_mem_nil, fun hco => absurd ⟨hco.1, hco.2.1⟩ hstd⟩
  · unfold catalogBatchOffers batchOffers
    simp only [List.mem_map, List.mem_filter, decide_eq_true_eq]
    constructor
    · rintro ⟨e, ⟨⟨c, ⟨hc, hpos⟩, rfl⟩, hp⟩, rfl⟩
      exact ⟨c, hc, hpos, hp, rfl⟩
    · rintro ⟨c, hc, hpos, hp, rfl⟩
      exact ⟨_, ⟨⟨c, ⟨hc, hpos⟩, rfl⟩, hp⟩, rfl⟩

/-- The entry of `co` in the row of a product is for the offer `o`, with its units. -/
structure Entry (rt : Runtime) (db : Db) (p : ℕ) (co : CatalogOffer) (o : CommercialPrice) :
    Prop where
  ofProduct : o.productId = p
  channel : o.channel = .business
  offer : co.commercialPriceId = o.pk
  units : co.availableUnits = db.poolCapacity rt.now (listOrderableBatchesForOffer rt db o .eur)
  sellable : o.Sellable db
  free : 0 < db.poolCapacity rt.now (listOrderableBatchesForOffer rt db o .eur)

/-- The units of a standard offer that may be sold are the free units of its pool. -/
theorem catalogStandardUnits_eq (h : OfferConstraints db) (hfit : ReservationsFit rt.now db) {p : ℕ}
    (hp : 0 < (orderableQuantityByProductId rt db).getD p 0) {o : CommercialPrice}
    (hs : o.Sellable db) (hch : o.channel = .business) (hproduct : o.productId = p)
    (hstd : o.batchId = none) :
    catalogStandardUnits rt db p
      = db.poolCapacity rt.now (listOrderableBatchesForOffer rt db o .eur) := by
  rw [pool_standard hs hch hstd, hproduct]
  exact standard_units h hfit hp

/-- The units of a batch offer that may be sold are the free units of its pool. -/
theorem catalogBatchUnits_eq {c : CommercialPrice × ℕ × PriceAmount}
    (hc : c ∈ batchPriceCandidates (catalogPrices rt db)) (hs : c.1.Sellable db) :
    (catalogBatchUnits rt db).getD c.2.1 0
      = db.poolCapacity rt.now (listOrderableBatchesForOffer rt db c.1 .eur) := by
  rw [units_candidate hc, pool_batch hs (mem_batchPriceCandidates.mp hc).2.1]

/-- What a row offers is the entry of an offer. -/
theorem entry_of_mem (h : OfferConstraints db) (hfit : ReservationsFit rt.now db) {p : ℕ}
    (hactive : productActive db p = true)
    (hp : 0 < (orderableQuantityByProductId rt db).getD p 0) {o : CommercialPrice}
    (ho : o ∈ db.commercialPrices) (hproduct : o.productId = p) (hch : o.channel = .business)
    (hstd : o.batchId = none) {co : CatalogOffer} (hco : co ∈ catalogOffers rt db o p) :
    ∃ offer ∈ db.commercialPrices, Entry rt db p co offer := by
  -- The standard offer sells what the batch offers leave.
  rcases mem_catalogOffers.mp hco with ⟨hpos, henabled, rfl⟩ | ⟨c, hc, hpos, hcp, rfl⟩
  · have hs : o.Sellable db :=
      ⟨hproduct ▸ hactive, henabled, fun hbatch => absurd hstd hbatch⟩
    have hunits := catalogStandardUnits_eq h hfit hp hs hch hproduct hstd
    exact ⟨o, ho, hproduct, hch, rfl, hunits, hs, by omega⟩
  · obtain ⟨hmem, hbatch, henabled, hamount⟩ := mem_batchPriceCandidates.mp hc
    obtain ⟨hmem, hcch, -⟩ := mem_catalogPrices.mp hmem
    have hs : c.1.Sellable db :=
      ⟨hcp ▸ hactive, henabled, fun _ => hasAmount_iff.mpr ⟨_, hamount⟩⟩
    have hunits := catalogBatchUnits_eq hc hs
    exact ⟨c.1, hmem, hcp, hcch, rfl, hunits, hs, by omega⟩

/-- An offer that may be sold and has free units is in the row of its product. -/
theorem mem_of_sellable (h : OfferConstraints db) (hfit : ReservationsFit rt.now db)
    {offer o : CommercialPrice} (hoffer : offer ∈ db.commercialPrices)
    (hch : offer.channel = .business) (hs : offer.Sellable db)
    (hpos : 0 < db.poolCapacity rt.now (listOrderableBatchesForOffer rt db offer .eur))
    (ho : catalogStandardOffer rt db offer.productId = some o) :
    ∃ co ∈ catalogOffers rt db o offer.productId, co.commercialPriceId = offer.pk := by
  have hp := orderable_of_pool h hfit hoffer hpos
  -- A sellable offer is listed as the standard one or as a candidate.
  cases hbatch : offer.batchId with
  | none =>
    have hfound := catalogStandardOffer_eq h hp hoffer rfl hch hbatch
    rw [hfound, Option.some.injEq] at ho
    subst ho
    have hunits := catalogStandardUnits_eq h hfit hp hs hch rfl hbatch
    exact ⟨_, mem_catalogOffers.mpr (.inl ⟨by omega, hs.2.1, rfl⟩), rfl⟩
  | some k =>
    obtain ⟨amount, hamount⟩ := hasAmount_iff.mp (hs.2.2 (by simp [hbatch]))
    have hc : (offer, k, amount) ∈ batchPriceCandidates (catalogPrices rt db) :=
      mem_batchPriceCandidates.mpr ⟨mem_catalogPrices.mpr ⟨hoffer, hch, hp⟩, hbatch, hs.2.1, hamount⟩
    have hunits := catalogBatchUnits_eq hc hs
    have hfree : 0 < (catalogBatchUnits rt db).getD k 0 := hunits ▸ Nat.cast_pos.mpr hpos
    exact ⟨_, mem_catalogOffers.mpr (.inr ⟨_, hc, hfree, rfl, rfl⟩), rfl⟩

/-- The rows of the catalog. -/
theorem mem_catalog {row : CatalogProduct} :
    row ∈ (listCatalogProducts rt db (candidateProductIds rt db)).filterMap (catalogEntry rt db) ↔
      ∃ p ∈ db.products, p.active = true ∧ 0 < (orderableQuantityByProductId rt db).getD p.pk 0
        ∧ ∃ o, catalogStandardOffer rt db p.pk = some o ∧ catalogOffers rt db o p.pk ≠ []
          ∧ row = ⟨p, (orderableQuantityByProductId rt db).getD p.pk 0,
              catalogOffers rt db o p.pk⟩ := by
  simp only [List.mem_filterMap, mem_listCatalogProducts, mem_candidateProductIds, catalogEntry,
    Option.bind_eq_some_iff, catalogRow_eq_some, and_assoc]

/-- The standard offer the catalog finds is one of the product. -/
theorem catalogStandardOffer_some {p : ℕ} {o : CommercialPrice}
    (ho : catalogStandardOffer rt db p = some o) : o ∈ db.commercialPrices ∧ o.productId = p
      ∧ o.channel = .business ∧ o.batchId = none := by
  obtain ⟨hmem, hfound⟩ := List.mem_filter.mp (List.mem_of_getLast? ho)
  obtain ⟨hmem, hch, -⟩ := mem_catalogPrices.mp hmem
  simp only [decide_eq_true_eq] at hfound
  exact ⟨hmem, hfound.2, hch, hfound.1⟩

/-- Every entry of the catalog is for an offer. -/
theorem entry_of_catalog (h : OfferConstraints db) (hfit : ReservationsFit rt.now db)
    {row : CatalogProduct}
    (hrow : row ∈ (listCatalogProducts rt db (candidateProductIds rt db)).filterMap
      (catalogEntry rt db)) {co : CatalogOffer} (hco : co ∈ row.offers) :
    ∃ o ∈ db.commercialPrices, Entry rt db row.product.pk co o := by
  obtain ⟨p, hp, hactive, hpos, o, ho, -, rfl⟩ := mem_catalog.mp hrow
  obtain ⟨hmem, hproduct, hch, hstd⟩ := catalogStandardOffer_some ho
  exact entry_of_mem h hfit (productActive_iff.mpr ⟨p, hp, rfl, hactive⟩) hpos hmem hproduct hch
    hstd hco

/-- Whatever the catalog returns is entries of offers. -/
theorem entry_of_listed (h : OfferConstraints db) (hfit : ReservationsFit rt.now db)
    {catalog : List CatalogProduct} (hok : listBusinessCatalogProducts rt db = .ok catalog)
    {row : CatalogProduct} (hrow : row ∈ catalog) {co : CatalogOffer} (hco : co ∈ row.offers) :
    ∃ o ∈ db.commercialPrices, Entry rt db row.product.pk co o := by
  rw [listBusinessCatalogProducts_eq (standardOffers_of_catalog hok), Except.ok.injEq] at hok
  subst hok
  exact entry_of_catalog h hfit hrow hco

/-- **The catalog.** It returns; an offer is listed iff it may be sold and its pool has free
    units; and a plan over the pool of a listed offer succeeds iff it asks for no more than the
    units listed. -/
theorem catalog_promises (h : OfferTable db) (hfit : ReservationsFit rt.now db) :
    ∃ catalog, listBusinessCatalogProducts rt db = .ok catalog ∧
      (∀ o ∈ db.commercialPrices, o.channel = .business →
        (Listed catalog o ↔ o.Sellable db
          ∧ 0 < db.poolCapacity rt.now (listOrderableBatchesForOffer rt db o .eur))) ∧
      ∀ row ∈ catalog, ∀ co ∈ row.offers, ∃ o ∈ db.commercialPrices,
        o.pk = co.commercialPriceId ∧ o.channel = .business ∧ ∀ q : ℤ, 1 ≤ q →
          ((∃ picks, planBatchPicks
              ((lockedPool rt db (listOrderableBatchesForOffer rt db o .eur)).map
                InventoryBatch.availability) q
              (activeReservedQuantitiesByBatchPk rt.now db
                ((lockedPool rt db (listOrderableBatchesForOffer rt db o .eur)).map
                  InventoryBatch.pk)) = .ok picks)
            ↔ q ≤ co.availableUnits) := by
  -- Listed gives sellable, sellable gives listed, and the units are the plannable ones.
  refine ⟨_, listBusinessCatalogProducts_eq h.standardOffers, fun o ho hch => ⟨?_, ?_⟩, ?_⟩
  · rintro ⟨row, hrow, co, hco, hpk⟩
    obtain ⟨x, hx, hentry⟩ := entry_of_catalog h.constraints hfit hrow hco
    have hxo : x = o := Table.eq_of_pk_eq hx ho (hentry.offer.symm.trans hpk)
    subst hxo
    exact ⟨hentry.sellable, hentry.free⟩
  · rintro ⟨hs, hpos⟩
    have hp := orderable_of_pool h.constraints hfit ho hpos
    obtain ⟨p, hproduct, hpk, hactive⟩ := productActive_iff.mp hs.1
    rw [← hpk] at hp
    obtain ⟨std, -, -, -, -, hfound⟩ := exists_catalogStandardOffer h hproduct hp
    obtain ⟨co, hco, hcopk⟩ := mem_of_sellable h.constraints hfit ho hch hs hpos (hpk ▸ hfound)
    rw [← hpk] at hco
    exact ⟨_, mem_catalog.mpr ⟨p, hproduct, hactive, hp, std, hfound, List.ne_nil_of_mem hco, rfl⟩,
      co, hco, hcopk⟩
  · intro row hrow co hco
    obtain ⟨o, ho, hentry⟩ := entry_of_catalog h.constraints hfit hrow hco
    refine ⟨o, ho, hentry.offer.symm, hentry.channel, fun q hq => ?_⟩
    rw [hentry.units]
    exact plan_of_pool h.constraints ho hq

namespace Shop

/-- The offer of the clearance batch, at 5.00. -/
def clearanceOffer : CommercialPrice :=
  ⟨2, 1, some 2, .business, "CLEARANCE", true, [⟨.eur, 500, none, by decide⟩]⟩

/-- Ten units of the product, and five on a batch that is sold through an offer of its own. -/
def clearanceOps : List (Runtime × Op) :=
  opening ++
  [ (runtime 1, .createBatch 1 5 20 "Shelf" (some "C") none false none),
    (runtime 2, .catalog products
      { rows := [businessOffer, clearanceOffer]
        next := 3
        sorted := by decide
        bounded := by decide } .empty) ]

/-- Three units of the standard offer are ordered. -/
def stall : Db :=
  (State.init.after
    (clearanceOps ++ [(runtime 3, .createOrder 7 [⟨3, .stock, some 1, none⟩] none)])).db

/-- The example's offers fit together. -/
theorem stall_offers : OfferTable stall where
  uniqueProductPrice := by decide +kernel
  uniqueBatchPrice := by decide +kernel
  batchProduct := by decide +kernel
  standard := by decide +kernel

end Shop

/-- The stall lists both offers, whatever batch the first order was served from. -/
theorem catalog_promises_stall :
    ∃ catalog, listBusinessCatalogProducts (Shop.runtime 4) Shop.stall = .ok catalog ∧
      ∀ o ∈ Shop.stall.commercialPrices, Listed catalog o := by
  have hfit : ReservationsFit (Shop.runtime 4).now Shop.stall := by decide +kernel
  obtain ⟨catalog, hok, hlisted, -⟩ := catalog_promises Shop.stall_offers hfit
  have hsellable : ∀ o ∈ Shop.stall.commercialPrices.rows, o.channel = .business
      ∧ (productActive Shop.stall o.productId = true ∧ o.enabled = true
        ∧ (o.batchId ≠ none → o.hasAmount .eur = true))
      ∧ 0 < Shop.stall.poolCapacity (Shop.runtime 4).now
        (listOrderableBatchesForOffer (Shop.runtime 4) Shop.stall o .eur) := by
    decide +kernel
  exact ⟨catalog, hok, fun o ho => (hlisted o ho (hsellable o ho).1).mpr (hsellable o ho).2⟩

end SwedeSweets
