import SwedeSweets.Business.DraftMutations
import SwedeSweets.Guarantees.DraftPlacement
import SwedeSweets.Guarantees.OrderLines

namespace SwedeSweets

open Relational Fallible Business

/-!
# Repeating an order, line by line

`repeatOrderIntoDraft` adds the source lines one after the other and skips those that cannot be
added.  Nothing but the draft changes on the way, so what becomes of each line is decided by the
catalog and by running totals: `Business.repeatDecisions`.  `repeatLines_eq`: the loop follows
these decisions and never raises.
-/

variable {rt : Runtime} {db db' : Db} {customer k : ℕ}

/-! ### What the catalog lists -/

/-- A listed offer is one of the offer table, and the standard one iff it is listed as such; its
    price is positive. -/
theorem listed_offer {catalog : List CatalogProduct}
    (hok : listBusinessCatalogProducts rt db = .ok catalog) {row : CatalogProduct}
    (hrow : row ∈ catalog) {co : CatalogOffer} (hco : co ∈ row.offers) :
    row.product ∈ db.products ∧ (∀ c ∈ co.price, 0 < c) ∧
      ∃ o ∈ db.commercialPrices, o.pk = co.commercialPriceId ∧ o.productId = row.product.pk
        ∧ o.channel = .business ∧ (co.kind = .standard ↔ o.batchId = none) := by
  rw [listBusinessCatalogProducts_eq (standardOffers_of_catalog hok), Except.ok.injEq] at hok
  subst hok
  obtain ⟨p, hp, -, -, o, ho, -, rfl⟩ := mem_catalog.mp hrow
  have hprice : ∀ a : PriceAmount, ∀ c ∈ some a.price, 0 < c := by
    intro a c hc
    rw [Option.mem_some_iff] at hc
    exact hc ▸ a.price_pos
  -- the standard offer, or the offer of a batch
  rcases mem_catalogOffers.mp hco with ⟨-, -, rfl⟩ | ⟨c, hc, -, hproduct, rfl⟩
  · obtain ⟨hmem, hproduct, hch, hstd⟩ := catalogStandardOffer_some ho
    refine ⟨hp, fun c hc => ?_, o, hmem, rfl, hproduct, hch, iff_of_true rfl hstd⟩
    obtain ⟨a, -, rfl⟩ := Option.mem_map.mp hc
    exact a.price_pos
  · obtain ⟨hmem, hbatch, -, -⟩ := mem_batchPriceCandidates.mp hc
    obtain ⟨hmem, hch, -⟩ := mem_catalogPrices.mp hmem
    refine ⟨hp, hprice c.2.2, c.1, hmem, rfl, hproduct, hch, iff_of_false (by simp [batchOffer]) ?_⟩
    rw [hbatch]
    simp

/-! ### The draft that is filled -/

/-- A customer without a draft gets one. -/
theorem getOrCreateDraft_returns (rt : Runtime) (db : Db) (customer : ℕ) :
    ∃ r, getOrCreateCustomerDraftOrder rt db customer = .ok r := by
  unfold getOrCreateCustomerDraftOrder
  split
  · exact ⟨_, rfl⟩
  · rename_i hsorted
    -- an empty sorted list comes from no drafts
    have hnone : db.orders.select (isBusinessDraftOf customer) = [] := by
      have hlength := List.length_insertionSort (fun a b : Order => a.createdAt < b.createdAt
        ∨ (a.createdAt = b.createdAt ∧ a.pk ≤ b.pk)) (db.orders.select (isBusinessDraftOf customer))
      rw [hsorted] at hlength
      exact List.length_eq_zero_iff.mp hlength.symm
    unfold insertOrder
    simp only [if_true, bind_eq_ok, orRaise_eq_ok, Option.some.injEq, exists_eq_left',
      require_eq_ok, exists_const, pure_eq_ok]
    exact ⟨_, hnone, rfl⟩

/-- The draft that was found or opened is found again, whatever happened to other tables. -/
theorem getOrCreateDraft_again {db₁ db₂ : Db} {o : Order}
    (h : getOrCreateCustomerDraftOrder rt db customer = .ok (db₁, o))
    (horders : db₂.orders = db₁.orders) :
    getOrCreateCustomerDraftOrder rt db₂ customer = .ok (db₂, o) := by
  -- the oldest draft is found again while the orders stay
  have hsame : ∀ {d : Db} {draft : Order} (rest : List Order), d.orders = db₂.orders →
      (d.orders.select (isBusinessDraftOf customer)).insertionSort (fun a b : Order =>
        a.createdAt < b.createdAt ∨ (a.createdAt = b.createdAt ∧ a.pk ≤ b.pk)) = draft :: rest →
      getOrCreateCustomerDraftOrder rt db₂ customer = .ok (db₂, draft) := by
    intro d draft rest hd hsorted
    rw [hd] at hsorted
    unfold getOrCreateCustomerDraftOrder
    rw [hsorted]
    rfl
  unfold getOrCreateCustomerDraftOrder at h
  split at h
  · rename_i draft rest hsorted
    rw [pure_eq_ok, Prod.mk.injEq] at h
    obtain ⟨rfl, rfl⟩ := h
    exact hsame rest horders.symm hsorted
  · -- the new draft is the only one
    unfold insertOrder at h
    simp only [if_true, bind_eq_ok, orRaise_eq_ok, Option.some.injEq, exists_eq_left',
      require_eq_ok, exists_const, pure_eq_ok, Prod.mk.injEq] at h
    obtain ⟨hnone, rfl, rfl⟩ := h
    refine hsame [] horders.symm ?_
    rw [Table.select_insert, hnone]
    simp [isBusinessDraftOf, newOrder]

/-- The units of the explicit lines for an offer on an order. -/
def Db.explicitUnits (db : Db) (orderPk offerId : ℕ) : ℤ :=
  lineQuantity ((db.orderLines orderPk).filter
    (fun l => l.businessOfferSelection = some (some offerId)))

/-- The units of all lines for an offer on an order. -/
def Db.offerUnits (db : Db) (orderPk offerId : ℕ) : ℤ :=
  lineQuantity ((db.orderLines orderPk).filter (fun l => l.commercialOfferId = offerId))

/-- The explicit line an addition finds has all units of the explicit lines for its offer. -/
theorem explicitUnits_eq (h : OneLinePerOffer db) (o : Order) {product : Product}
    {offer : CommercialPrice} (hoffer : offer ∈ db.commercialPrices)
    (hproduct : offer.productId = product.pk) :
    lineQuantity (findLineForOffer db o product offer.pk).toList = db.explicitUnits o.pk offer.pk := by
  refine congrArg lineQuantity ?_
  -- an explicit line for the offer is one of its product
  have hfound : ∀ l ∈ db.orderLines o.pk, l.businessOfferSelection = some (some offer.pk) →
      Explicit db o product offer.pk l := by
    intro l hl hselection
    have hmem := (Db.mem_orderLines.mp hl).1
    have hpk := Option.some.inj (h.selection l hmem _ hselection)
    exact ⟨hl, (h.product l hmem offer hoffer hpk).symm.trans hproduct, hselection⟩
  cases hfind : findLineForOffer db o product offer.pk with
  | none =>
    refine (List.filter_eq_nil_iff.mpr (fun l hl hselection => ?_)).symm
    exact findLineForOffer_none hfind l (hfound l hl (of_decide_eq_true hselection))
  | some line =>
    obtain ⟨hline, hlproduct, hlselection⟩ := findLineForOffer_some hfind
    obtain ⟨hmem, horder⟩ := Db.mem_orderLines.mp hline
    refine Eq.symm ((List.filter_filter ..).trans (Table.select_eq_singleton hmem (fun x hx => ?_)))
    rw [Bool.and_eq_true, decide_eq_true_eq, decide_eq_true_eq]
    constructor
    · rintro ⟨hselection, hxorder⟩
      have hx' := Option.some.inj (h.selection x hx _ hselection)
      have hl' := Option.some.inj (h.selection line hmem _ hlselection)
      refine h.unique x hx line hmem (hxorder.trans horder.symm) (hx'.symm.trans hl') ?_
      unfold OrderLine.isExplicit
      rw [hselection, hlselection]
    · rintro rfl
      exact ⟨hlselection, horder⟩

/-- A line of a draft takes every quantity that fits its column. -/
theorem setDraftOrderLineQuantity_returns {o : Order} (ho : o ∈ db.orders) (hdraft : o.status = .draft)
    {l : OrderLine} (hl : l ∈ db.orderLines o.pk) {quantity : ℤ} (hquantity : LineQuantity quantity) :
    ∃ db', setDraftOrderLineQuantity db o.pk l.pk quantity = .ok db' := by
  obtain ⟨x, hx⟩ : ∃ x, findOrderLine db o l.pk = .ok x := by
    unfold findOrderLine
    simp only [orRaise_eq_ok]
    exact Option.isSome_iff_exists.mp (List.find?_isSome.mpr ⟨l, hl, decide_eq_true rfl⟩)
  obtain ⟨x', hx'⟩ : ∃ x', x.resize quantity = .ok x' :=
    ⟨_, OrderLine.resize_eq_ok.mpr ⟨hquantity, rfl⟩⟩
  unfold setDraftOrderLineQuantity requireDraftForEdit requirePositiveQuantity
  simp only [lockedOrder_eq_ok, requireStatus_eq_ok, bind_eq_ok, require_eq_ok, exists_const,
    pure_eq_ok]
  exact ⟨_, o, ho, rfl, hdraft, hquantity.1, x, hx, x', hx', rfl⟩

/-- A draft takes every line that can be stored. -/
theorem addDraftOrderLine_returns {o : Order} (ho : o ∈ db.orders) (hdraft : o.status = .draft)
    (line : ResolvedOrderLine) (hstorable : line.Storable)
    (hproduct : line.commercialOffer.productId = line.product.pk)
    (hch : line.commercialOffer.channel = o.channel) :
    ∃ db', addDraftOrderLine db o.pk line = .ok db' := by
  obtain ⟨x, hx⟩ := exists_newOrderLine o hstorable
  unfold addDraftOrderLine requireDraftForEdit requirePositiveQuantity
  simp only [lockedOrder_eq_ok, requireStatus_eq_ok, bind_eq_ok, require_eq_ok, exists_const,
    pure_eq_ok, validateCommercialOffer_eq_ok]
  exact ⟨_, o, ho, rfl, hdraft, hstorable.quantity.1, _, ⟨hproduct, hch, rfl⟩, x, hx, rfl⟩

/-- The two bounds of a catalog addition: the units of the offer, and the guardrail. -/
def Fits (db : Db) (orderPk productId : ℕ) (offer : CatalogOffer) (quantity : ℤ) : Prop :=
  db.explicitUnits orderPk offer.commercialPriceId + quantity ≤ offer.availableUnits ∧
    db.productUnits orderPk productId + quantity ≤ maxQuantityPerProductPerOrder

/-- **Adding an offer.** On a draft it returns iff both bounds are kept. -/
theorem addOffer_returns (h : OneLinePerOffer db) {o : Order} (ho : o ∈ db.orders)
    (hdraft : isBusinessDraftOf customer o = true) {product : Product} {offer : CommercialPrice}
    (hoffer : offer ∈ db.commercialPrices) (hproduct : offer.productId = product.pk)
    (hch : offer.channel = .business) {co : CatalogOffer} (hco : co.commercialPriceId = offer.pk)
    (hprice : ∀ c ∈ co.price, 0 < c) {quantity : ℤ} (hpos : 0 < quantity)
    (hfits : Fits db o.pk product.pk co quantity) :
    ∃ db', addOffer db o product co offer.pk quantity = .ok db' := by
  simp only [isBusinessDraftOf, Bool.and_eq_true, decide_eq_true_eq] at hdraft
  obtain ⟨⟨hbusiness, -⟩, hst⟩ := hdraft
  obtain ⟨havailable, hlimit⟩ := hfits
  rw [hco, ← explicitUnits_eq h o hoffer hproduct] at havailable
  have hold := lineQuantity_nonneg (findLineForOffer db o product offer.pk).toList
  unfold addOffer
  simp only [bind_eq_ok, require_eq_ok, exists_const, requireUsualQuantity_eq_ok]
  cases hfind : findLineForOffer db o product offer.pk with
  | some line =>
    rw [hfind] at havailable hold
    obtain ⟨hmem, hlproduct, -⟩ := findLineForOffer_some hfind
    have hunits := quantity_le_productUnits hmem
    rw [hlproduct] at hunits
    have htotal : LineQuantity (lineQuantity (some line).toList + quantity) := by
      -- the guardrail is far below what the column holds
      refine ⟨by omega, ?_⟩
      unfold maxQuantityPerProductPerOrder at hlimit
      unfold quantityDigits
      rw [Option.toList_some, lineQuantity_singleton]
      omega
    obtain ⟨db', hdb'⟩ := setDraftOrderLineQuantity_returns ho hst hmem htotal
    exact ⟨db', havailable, hlimit, hdb'⟩
  | none =>
    rw [hfind] at havailable
    have hunits : 0 ≤ db.productUnits o.pk product.pk := lineQuantity_nonneg _
    have hquantity : LineQuantity quantity := by
      refine ⟨hpos, ?_⟩
      unfold maxQuantityPerProductPerOrder at hlimit
      unfold quantityDigits
      omega
    obtain ⟨db', hdb'⟩ := addDraftOrderLine_returns ho hst ⟨product, quantity, offer, co.price⟩
      ⟨hquantity, hprice⟩ hproduct (hch.trans hbusiness.symm)
    have hget : db.getCommercialPrice co.commercialPriceId = .ok offer :=
      Db.getCommercialPrice_eq_ok.mpr ⟨hoffer, hco.symm⟩
    simp only [hget, bind_eq_ok, Except.ok.injEq, exists_eq_left', hdb', pure_eq_ok]
    exact ⟨_, havailable, hlimit, rfl⟩

/-- An offer that does not fit is refused with a message. -/
theorem addOffer_refuses (h : OneLinePerOffer db) (o : Order) {product : Product}
    {offer : CommercialPrice} (hoffer : offer ∈ db.commercialPrices)
    (hproduct : offer.productId = product.pk) {co : CatalogOffer}
    (hco : co.commercialPriceId = offer.pk) {quantity : ℤ}
    (hfits : ¬ Fits db o.pk product.pk co quantity) :
    ∃ message, addOffer db o product co offer.pk quantity
      = .error (.invalidOrderOperation message) := by
  unfold Fits at hfits
  rw [hco, ← explicitUnits_eq h o hoffer hproduct, not_and_or] at hfits
  unfold addOffer
  -- there is not enough stock, or the order would have too much of the product
  by_cases havailable : lineQuantity (findLineForOffer db o product offer.pk).toList + quantity
      ≤ co.availableUnits
  · have hlimit := hfits.resolve_left (not_not_intro havailable)
    have husual : requireUsualQuantity (db.productUnits o.pk product.pk + quantity)
        = .error (.invalidOrderOperation
          ("maximum quantity per product is " ++ toString maxQuantityPerProductPerOrder)) := by
      refine require_eq_error.mpr ⟨fun husual => hlimit ?_, rfl⟩
      exact not_lt.mp (of_decide_eq_false husual)
    exact ⟨_, bind_eq_error.mpr (Or.inr ⟨(), require_of havailable,
      bind_eq_error.mpr (Or.inl husual)⟩)⟩
  · exact ⟨_, bind_eq_error.mpr (Or.inl (require_eq_error.mpr ⟨havailable, rfl⟩))⟩

/-! ### Decisions -/

/-- A source line, with the offer it is added to or the reason it is skipped for. -/
abbrev RepeatDecision := OrderLine × Except RepeatOrderSkipReason CatalogOffer

namespace RepeatDecision

/-- The units that go to an offer. -/
def unitsFor (offerId : ℕ) : RepeatDecision → ℤ
  | (line, .ok offer) => if offer.commercialPriceId = offerId then line.quantityInUnits else 0
  | (_, .error _) => 0

/-- The units of a product that are added. -/
def unitsOf (productId : ℕ) : RepeatDecision → ℤ
  | (line, .ok _) => if line.productId = productId then line.quantityInUnits else 0
  | (_, .error _) => 0

end RepeatDecision

/-- What becomes of one line, with the units that are on the draft for each offer and of each
    product. -/
def repeatDecision (catalog : List CatalogProduct) (offerUnits productUnits : ℕ → ℤ)
    (line : OrderLine) : Except RepeatOrderSkipReason CatalogOffer := do
  let offer ← repeatableOffer catalog line
  require (offerUnits offer.commercialPriceId + line.quantityInUnits ≤ offer.availableUnits
    ∧ productUnits line.productId + line.quantityInUnits ≤ maxQuantityPerProductPerOrder) .couldNotAdd
  return offer

/-- What becomes of the lines, each after those before it. -/
def repeatDecisions (catalog : List CatalogProduct) (offerUnits productUnits : ℕ → ℤ) :
    List OrderLine → List RepeatDecision
  | [] => []
  | line :: lines =>
      let decision := (line, repeatDecision catalog offerUnits productUnits line)
      decision :: repeatDecisions catalog
        (fun offerId => offerUnits offerId + RepeatDecision.unitsFor offerId decision)
        (fun productId => productUnits productId + RepeatDecision.unitsOf productId decision) lines

/-- The decision in the result that is reported. -/
def Business.RepeatOrderResult.record (orderPk : ℕ) (result : RepeatOrderResult) :
    RepeatDecision → RepeatOrderResult
  | (_, .ok _) => { result with draftOrder := some orderPk, addedCount := result.addedCount + 1 }
  | (line, .error reason) => result.skip line reason

/-- A decision carried out: the line is added to its offer, or nothing happens. -/
inductive RepeatStep (rt : Runtime) (customer : ℕ) : RepeatDecision → Db → Db → Prop where
  | added {line : OrderLine} {offer : CatalogOffer} {db : Db} {product : Product} {r : Db × Order}
      (ofLine : product.pk = line.productId)
      (adds : addCatalogOfferToDraftOrder rt db customer product offer.commercialPriceId
        line.quantityInUnits = .ok r) : RepeatStep rt customer (line, .ok offer) db r.1
  | skipped (line : OrderLine) (reason : RepeatOrderSkipReason) (db : Db) :
      RepeatStep rt customer (line, .error reason) db db

/-! ### The loop -/

/-- The catalog that was read is still that of the database, and the draft is the order `k`. -/
structure Filling (rt : Runtime) (customer k : ℕ) (catalog : List CatalogProduct) (db : Db) :
    Prop where
  lines : OneLinePerOffer db
  offers : OfferConstraints db
  fit : ReservationsFit rt.now db
  listed : listBusinessCatalogProducts rt db = .ok catalog
  draft : ∃ r, getOrCreateCustomerDraftOrder rt db customer = .ok r ∧ r.2.pk = k

/-- The offer a line is repeated with is in the row of the line's product. -/
theorem repeatableOffer_eq_ok {catalog : List CatalogProduct} {line : OrderLine} {co : CatalogOffer}
    (h : repeatableOffer catalog line = .ok co) :
    ∃ row ∈ catalog, catalog.find? (fun row => row.product.pk = line.productId) = some row
      ∧ row.product.pk = line.productId ∧ co ∈ row.offers
      ∧ resolveRepeatOffer line row = some co ∧ (line.quantityInUnits : ℤ) ≤ co.availableUnits := by
  unfold repeatableOffer at h
  simp only [bind_eq_ok, orRaise_eq_ok, require_eq_ok, exists_const, pure_eq_ok] at h
  obtain ⟨row, hrow, offer, hoffer, hle, rfl⟩ := h
  refine ⟨row, List.mem_of_find?_eq_some hrow, hrow, by simpa using List.find?_some hrow, ?_, hoffer,
    hle⟩
  unfold resolveRepeatOffer at hoffer
  split at hoffer <;> exact List.mem_of_find?_eq_some hoffer

namespace Filling

variable {catalog : List CatalogProduct} {line : OrderLine} {co : CatalogOffer}

/-- What the addition of the line looks up. -/
theorem lookup (h : Filling rt customer k catalog db) (hco : repeatableOffer catalog line = .ok co) :
    ∃ product, db.getProduct line.productId = .ok product ∧ product.pk = line.productId ∧
      ∃ row co', getCatalogProduct rt db product.pk = .ok row
        ∧ getCatalogOffer row co.commercialPriceId = .ok co'
        ∧ co'.availableUnits = co.availableUnits ∧ (∀ c ∈ co'.price, 0 < c) ∧
        ∃ offer ∈ db.commercialPrices, offer.pk = co.commercialPriceId
          ∧ offer.productId = product.pk ∧ offer.channel = .business
          ∧ (co.kind = .standard ↔ offer.batchId = none) := by
  obtain ⟨row, hrow, hfind, hproduct, hmem, -, -⟩ := repeatableOffer_eq_ok hco
  obtain ⟨hknown, -, offer, hoffer, hpk, hofferProduct, hch, hkind⟩ := listed_offer h.listed hrow hmem
  have hget : db.getProduct line.productId = .ok row.product := by
    unfold Db.getProduct
    rw [orRaise_eq_ok, Table.get?_eq_some]
    exact ⟨hknown, hproduct⟩
  have hcatalog : getCatalogProduct rt db row.product.pk = .ok row := by
    unfold getCatalogProduct
    simp only [bind_eq_ok, h.listed, Except.ok.injEq, exists_eq_left', orRaise_eq_ok, hproduct, hfind]
  obtain ⟨co', hco'⟩ : ∃ co', getCatalogOffer row co.commercialPriceId = .ok co' := by
    unfold getCatalogOffer
    simp only [orRaise_eq_ok]
    exact Option.isSome_iff_exists.mp (List.find?_isSome.mpr ⟨co, hmem, decide_eq_true rfl⟩)
  have hmem' : co' ∈ row.offers := by
    unfold getCatalogOffer at hco'
    rw [orRaise_eq_ok] at hco'
    exact List.mem_of_find?_eq_some hco'
  -- both entries are for one offer, and show its free units
  obtain ⟨x, hx, hentry⟩ := entry_of_listed h.offers h.fit h.listed hrow hmem
  obtain ⟨x', hx', hentry'⟩ := entry_of_listed h.offers h.fit h.listed hrow hmem'
  have hsame : x' = x := Table.eq_of_pk_eq (t := db.commercialPrices) hx' hx
    (hentry'.offer.symm.trans ((getCatalogOffer_eq_ok hco').trans hentry.offer))
  refine ⟨row.product, hget, hproduct, row, co', hcatalog, hco', ?_,
    (listed_offer h.listed hrow hmem').2.1, offer, hoffer, hpk, hofferProduct, hch, hkind⟩
  rw [hentry'.units, hentry.units, hsame]

/-- The addition is decided by its second half, on the draft that was found or opened. -/
theorem split (h : Filling rt customer k catalog db) (hco : repeatableOffer catalog line = .ok co) :
    ∃ product, db.getProduct line.productId = .ok product ∧ product.pk = line.productId ∧
      ∃ r, getOrCreateCustomerDraftOrder rt db customer = .ok r ∧
        (Fits db k line.productId co line.quantityInUnits →
          ∃ db', addCatalogOfferToDraftOrder rt db customer product co.commercialPriceId
            line.quantityInUnits = .ok (db', r.2)) ∧
        (¬ Fits db k line.productId co line.quantityInUnits →
          ∃ message, addCatalogOfferToDraftOrder rt db customer product co.commercialPriceId
            line.quantityInUnits = .error (.invalidOrderOperation message)) := by
  obtain ⟨product, hget, hproduct, row, co', hrow, hco', hunits, hprice, offer, hoffer, hpk,
    hofferProduct, hch, -⟩ := h.lookup hco
  obtain ⟨⟨db₁, o⟩, hdraft, hok⟩ := h.draft
  have hok : o.pk = k := hok
  obtain ⟨ho, hcustomer, -⟩ := getOrCreateDraft_eq_ok hdraft
  obtain ⟨hlines, -⟩ := h.lines.openDraft hdraft
  obtain ⟨orders, hopened⟩ := getOrCreateDraft_frame hdraft
  have hopened : db₁ = { db with orders := orders } := hopened
  subst hopened
  have hpos : (0 : ℤ) < line.quantityInUnits := by exact_mod_cast line.quantity_pos
  have hid : co'.commercialPriceId = offer.pk := (getCatalogOffer_eq_ok hco').trans hpk.symm
  -- what is checked is the same before and after the draft is opened
  have hfits : Fits db k line.productId co line.quantityInUnits
      ↔ Fits { db with orders := orders } o.pk product.pk co' line.quantityInUnits := by
    unfold Fits
    rw [hunits, hid, hpk, hok, hproduct]
    rfl
  have hpositive : require (0 < (line.quantityInUnits : ℤ))
      (Error.invalidOrderOperation "quantity must be positive") = .ok () := require_of hpos
  refine ⟨product, hget, hproduct, _, hdraft, fun hf => ?_, fun hf => ?_⟩
  · obtain ⟨db', hdb'⟩ := addOffer_returns hlines ho hcustomer hoffer hofferProduct hch hid hprice
      hpos (hfits.mp hf)
    rw [hpk] at hdb'
    refine ⟨db', ?_⟩
    rw [addCatalogOffer_eq]
    exact bind_eq_ok.mpr ⟨_, hpositive, bind_eq_ok.mpr ⟨_, hrow, bind_eq_ok.mpr ⟨_, hco',
      bind_eq_ok.mpr ⟨_, hdraft, bind_eq_ok.mpr ⟨_, hdb', rfl⟩⟩⟩⟩⟩
  · obtain ⟨message, hmessage⟩ := addOffer_refuses hlines o hoffer hofferProduct hid
      (fun hc => hf (hfits.mpr hc))
    rw [hpk] at hmessage
    refine ⟨message, ?_⟩
    rw [addCatalogOffer_eq]
    exact bind_eq_error.mpr (Or.inr ⟨_, hpositive, bind_eq_error.mpr (Or.inr ⟨_, hrow,
      bind_eq_error.mpr (Or.inr ⟨_, hco', bind_eq_error.mpr (Or.inr ⟨_, hdraft,
        bind_eq_error.mpr (Or.inl hmessage)⟩)⟩)⟩)⟩)

/-- An addition goes to the draft of the loop. -/
theorem draft_eq (h : Filling rt customer k catalog db) {product : Product} {offerId : ℕ}
    {quantity : ℤ} {r : Db × Order}
    (hadd : addCatalogOfferToDraftOrder rt db customer product offerId quantity = .ok r) :
    r.2.pk = k := by
  obtain ⟨-, row, offer, -, -, db₁, hdraft, -⟩ := addCatalogOffer_eq_ok hadd
  obtain ⟨r', hdraft', hk⟩ := h.draft
  have hr : r' = (db₁, r.2) := Except.ok.inj (hdraft'.symm.trans hdraft)
  rw [← hk, hr]

/-- After an addition the loop goes on with the same catalog and the same draft. -/
theorem next (h : Filling rt customer k catalog db) {product : Product} {offerId : ℕ} {quantity : ℤ}
    {r : Db × Order}
    (hadd : addCatalogOfferToDraftOrder rt db customer product offerId quantity = .ok r) :
    Filling rt customer k catalog r.1 := by
  obtain ⟨old, new, hw⟩ := wrote_addCatalogOffer hadd
  obtain ⟨orders, lines, hframe⟩ := hw.frame
  obtain ⟨-, row, offer, -, -, db₁, hdraft, haddition⟩ := addCatalogOffer_eq_ok hadd
  -- adding a line leaves the orders alone
  have horders : r.1.orders = db₁.orders := by
    revert haddition
    generalize r.1 = db', r.2 = o
    intro haddition
    cases haddition with
    | resized => rfl
    | inserted => rfl
  refine ⟨h.lines.addCatalogOffer hadd, ?_, ?_, ?_, _, getOrCreateDraft_again hdraft horders,
    h.draft_eq hadd⟩
  · exact h.offers.frame (by rw [hframe]) (by rw [hframe])
  · rw [hframe]
    exact h.fit
  · rw [hframe]
    exact h.listed

end Filling

/-- A catalog addition adds its units to every sum that its line counts for. -/
theorem Wrote.gain {product : Product} {offerId : ℕ} {quantity : ℤ} {old : Option OrderLine}
    {new : OrderLine} (h : Wrote rt db (.addCatalogOffer customer product offerId quantity) k old new
      db') {p : OrderLine → Bool} (hp : ∀ {l l' : OrderLine}, l.SameChoice l' → p l' = p l) (k' : ℕ) :
    lineQuantity ((db'.orderLines k').filter p) = lineQuantity ((db.orderLines k').filter p)
      + if k = k' ∧ p new = true then quantity else 0 := by
  have hsum := h.write.lineQuantity rfl hp k'
  have hunits : (new.quantityInUnits : ℤ) = lineQuantity old.toList + quantity := h.units
  by_cases hline : k = k' ∧ p new = true
  · rw [if_pos hline, if_pos hline, hunits] at hsum
    rw [if_pos hline]
    omega
  · rw [if_neg hline, if_neg hline] at hsum
    rw [if_neg hline]
    omega

/-- The units of all lines for an offer grow with those of the explicit ones. -/
theorem Wrote.offerUnits {product : Product} {offerId : ℕ} {quantity : ℤ} {old : Option OrderLine}
    {new : OrderLine} (h : Wrote rt db (.addCatalogOffer customer product offerId quantity) k old new
      db') (hlines : OneLinePerOffer db') (k' j : ℕ) :
    db'.offerUnits k' j = db.offerUnits k' j + if k = k' ∧ offerId = j then quantity else 0 := by
  have hoffer : offerId = new.commercialOfferId :=
    Option.some.inj (hlines.selection new h.write.mem.1 _ h.named.2)
  have hgain := h.gain (p := fun l => l.commercialOfferId = j)
    (fun same => by simp only [same.offer]) k'
  simp only [← hoffer, decide_eq_true_eq] at hgain
  exact hgain

/-- A line that fits is added, and one that does not could not be added. -/
theorem repeatDecision_eq {catalog : List CatalogProduct} {line : OrderLine} {co : CatalogOffer}
    (hco : repeatableOffer catalog line = .ok co) (db : Db) (k : ℕ) :
    (Fits db k line.productId co line.quantityInUnits →
      repeatDecision catalog (db.explicitUnits k) (db.productUnits k) line = .ok co) ∧
    (¬ Fits db k line.productId co line.quantityInUnits →
      repeatDecision catalog (db.explicitUnits k) (db.productUnits k) line = .error .couldNotAdd) := by
  unfold repeatDecision
  refine ⟨fun hf => ?_, fun hf => ?_⟩
  · exact bind_eq_ok.mpr ⟨_, hco, bind_eq_ok.mpr ⟨(), require_of hf, rfl⟩⟩
  · exact bind_eq_error.mpr (Or.inr ⟨_, hco, bind_eq_error.mpr (Or.inl
      (require_eq_error.mpr ⟨hf, rfl⟩))⟩)

/-- What one turn of the loop leaves. -/
structure Turn (rt : Runtime) (customer k : ℕ) (catalog : List CatalogProduct) (db : Db)
    (decision : RepeatDecision) (db' : Db) : Prop where
  step : RepeatStep rt customer decision db db'
  filling : Filling rt customer k catalog db'
  offerUnits : db'.explicitUnits k
    = fun offerId => db.explicitUnits k offerId + decision.unitsFor offerId
  productUnits : db'.productUnits k
    = fun productId => db.productUnits k productId + decision.unitsOf productId

/-- **One line.** The loop takes the decision and does not raise. -/
theorem Filling.turn {catalog : List CatalogProduct} (h : Filling rt customer k catalog db)
    (line : OrderLine) (result : RepeatOrderResult) {decision : RepeatDecision}
    (hdecision : decision
      = (line, repeatDecision catalog (db.explicitUnits k) (db.productUnits k) line)) :
    ∃ db', repeatLine rt customer catalog (db, result) line = .ok (db', result.record k decision)
      ∧ Turn rt customer k catalog db decision db' := by
  -- a line that is skipped leaves the database as it was
  have hskip : ∀ reason, Turn rt customer k catalog db (line, .error reason) db := fun reason =>
    ⟨RepeatStep.skipped line reason db, h, funext (fun _ => (add_zero _).symm),
      funext (fun _ => (add_zero _).symm)⟩
  unfold repeatLine
  cases hoffer : repeatableOffer catalog line with
  | error reason =>
    have herror : repeatDecision catalog (db.explicitUnits k) (db.productUnits k) line
        = .error reason := bind_eq_error.mpr (Or.inl hoffer)
    rw [herror] at hdecision
    subst hdecision
    exact ⟨db, rfl, hskip reason⟩
  | ok co =>
    obtain ⟨product, hget, hproduct, r, hdraft, hadds, hrefuses⟩ := h.split hoffer
    by_cases hf : Fits db k line.productId co line.quantityInUnits
    · obtain ⟨db', hadd⟩ := hadds hf
      rw [(repeatDecision_eq hoffer db k).1 hf] at hdecision
      subst hdecision
      have hrk : (db', r.2).2.pk = k := h.draft_eq hadd
      have hrk : r.2.pk = k := hrk
      obtain ⟨old, new, hw⟩ := wrote_addCatalogOffer hadd
      refine ⟨db', ?_, RepeatStep.added hproduct hadd, h.next hadd, funext (fun offerId => ?_),
        funext (fun productId => ?_)⟩
      · simp only [hget, hadd, bind_eq_ok, Except.ok.injEq, exists_eq_left', pure_eq_ok]
        rw [← hrk]
        rfl
      · have hgain := hw.gain (p := fun l => l.businessOfferSelection = some (some offerId))
          (fun same => by simp only [same.selection]) k
        have hselection : new.businessOfferSelection = some (some co.commercialPriceId) := hw.named.2
        simp only [hselection, Option.some.injEq, decide_eq_true_eq] at hgain
        refine hgain.trans (congrArg₂ (· + ·) rfl ?_)
        simp only [hrk, true_and, RepeatDecision.unitsFor]
      · have hgain := hw.gain (p := fun l => l.productId = productId)
          (fun same => by simp only [same.product]) k
        have hnamed : new.productId = line.productId := hw.named.1.trans hproduct
        simp only [hnamed, decide_eq_true_eq] at hgain
        refine hgain.trans (congrArg₂ (· + ·) rfl ?_)
        simp only [hrk, true_and, RepeatDecision.unitsOf]
    · obtain ⟨message, hrefused⟩ := hrefuses hf
      rw [(repeatDecision_eq hoffer db k).2 hf] at hdecision
      subst hdecision
      refine ⟨db, ?_, hskip .couldNotAdd⟩
      simp only [hget, hrefused, bind_eq_ok, Except.ok.injEq, exists_eq_left', pure_eq_ok]
      rfl

/-- **The loop.** It follows the decisions, reports them, and never raises. -/
theorem Filling.repeatLines_eq {catalog : List CatalogProduct} (h : Filling rt customer k catalog db)
    (lines : List OrderLine) (result : RepeatOrderResult) {decisions : List RepeatDecision}
    (hdecisions : decisions
      = repeatDecisions catalog (db.explicitUnits k) (db.productUnits k) lines) :
    ∃ db', repeatLines rt customer catalog lines (db, result)
        = (db', .ok (decisions.foldl (RepeatOrderResult.record k) result))
      ∧ Chain (RepeatStep rt customer) decisions db db' ∧ Filling rt customer k catalog db' := by
  induction lines generalizing db result decisions with
  | nil =>
    subst hdecisions
    exact ⟨db, rfl, Chain.nil db, h⟩
  -- one line is decided on and added, and the others find what it left
  | cons line lines ih =>
    obtain ⟨db₁, hline, hturn⟩ := h.turn line result rfl
    obtain ⟨db', hlines, hchain, hfilling⟩ := ih hturn.filling
      (result.record k (line, repeatDecision catalog (db.explicitUnits k) (db.productUnits k) line))
      rfl
    rw [hturn.offerUnits, hturn.productUnits] at hlines hchain
    subst hdecisions
    refine ⟨db', ?_, Chain.cons hturn.step hchain, hfilling⟩
    unfold repeatLines
    rw [hline]
    exact hlines

end SwedeSweets
