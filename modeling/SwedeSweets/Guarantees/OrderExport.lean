import SwedeSweets.Config.ExportOrderHistory
import SwedeSweets.Guarantees.OrderLines
import SwedeSweets.Invariants.OfferSelections

namespace SwedeSweets

open Relational Fallible Transition

/-!
# What the order history export says about offers

Every way to create and edit order lines, in the portals and in the shop, with anything else
happening in between (`LineStep`).

* `export_names_selected_offers` — the export of every database that such runs lead to, line by
  line: a line is exported with its offer exactly when a selection hangs on it;
* `ops_offers_exported_alike` — two orders of the ops portal for different offers, and one
  export for both.
-/

/-! ### Runs -/

/-- Something that may write order lines. -/
inductive LineMove where
  | business (rt : Runtime) (op : BusinessOp)
  | checkout (rt : Runtime) (buyer : AnonymousBuyerInput) (lines : List RetailOrderLineInput)
  | elsewhere

inductive LineStep : Db → LineMove → Db → Prop where
  | business {db : Db} (rt : Runtime) (op : BusinessOp) :
      LineStep db (.business rt op) (op.exec rt db)
  | checkout {db : Db} (rt : Runtime) (buyer : AnonymousBuyerInput)
      (lines : List RetailOrderLineInput) :
      LineStep db (.checkout rt buyer lines)
        (db.commit (createPendingRetailOrder rt db buyer lines))
  /-- Every other service may write any table; order lines it deletes at most. -/
  | elsewhere {db db' : Db} (lines : ∀ l ∈ db'.lines, l ∈ db.lines) : LineStep db .elsewhere db'

/-- The call inserts lines without selections, if it inserts any. -/
def BusinessOp.LeavesUnselected (db : Db) : BusinessOp → Prop
  | .createDraftOrder _ _ | .addProduct _ _ _ | .replaceDraftLines _ _ | .createOrder _ _ _
  | .opsCreateOrder _ _ _ => True
  | .updatePlacedOrder orderPk lines _ =>
      ∃ resolved, resolveBusinessOrderLines db lines = .ok resolved
        ∧ addedLines db orderPk resolved ≠ []
  | .opsUpdatePlacedOrder orderPk lines _ =>
      ∃ resolved, resolveBusinessOfferLines db lines = .ok resolved
        ∧ addedLines db orderPk resolved ≠ []
  | .addCatalogOffer _ _ _ _ | .setDraftLine _ _ _ | .removeDraftLine _ _
  | .setDraftProduct _ _ _ | .removeProduct _ _ | .discardDraft _ | .repeatOrder _ _
  | .placeOrder _ _ => False

def LineMove.LeavesUnselected (db : Db) : LineMove → Prop
  | .business _ op => op.LeavesUnselected db
  | .checkout _ _ _ | .elsewhere => False

/-! ### Each call -/

namespace LineWork

variable {unselected : Prop} {rt : Runtime} {db db' : Db}

/-- Adding an offer writes a line that selects it. -/
theorem addCatalogOffer {customer : ℕ} {product : Product} {k : ℕ} {quantity : ℤ} {r : Db × Order}
    (h : Business.addCatalogOfferToDraftOrder rt db customer product k quantity = .ok r) :
    LineWork unselected db r.1 := by
  rw [Business.addCatalogOffer_eq] at h
  simp only [bind_eq_ok, require_eq_ok, exists_const, pure_eq_ok] at h
  obtain ⟨-, -, -, offer, -, ⟨db₁, o⟩, hdraft, db₂, hadd, rfl⟩ := h
  have hopened : LineWork unselected db db₁ := openDraft hdraft
  exact hopened.trans (addOffer hadd)

/-- Adding a product may write a line without a selection. -/
theorem addProduct {customer : ℕ} {product : Product} {quantity : ℤ} {r : Db × Order}
    (h : Business.addProductToDraftOrder rt db customer product quantity = .ok r) :
    LineWork True db r.1 := by
  unfold Business.addProductToDraftOrder at h
  simp only [bind_eq_ok, require_eq_ok, exists_const] at h
  obtain ⟨-, -, standard, -, ⟨db₁, o⟩, hdraft, -, -, -, -, h⟩ := h
  have hopened : LineWork True db db₁ := openDraft hdraft
  -- The product's legacy line is resized, or one is added.
  cases hfind : Business.findLegacyLine db₁ o.pk product.pk with
  | some line =>
    simp only [hfind, bind_eq_ok, pure_eq_ok] at h
    obtain ⟨db₂, hset, rfl⟩ := h
    exact hopened.trans (setLine hset)
  | none =>
    simp only [hfind, bind_eq_ok, pure_eq_ok] at h
    obtain ⟨db₂, hadd, rfl⟩ := h
    exact hopened.trans (addLine hadd)

/-- Changing a line's quantity keeps its selection. -/
theorem setDraftLine {k lineId : ℕ} {quantity : ℤ}
    (h : Business.setDraftLineQuantity rt db k lineId quantity = .ok db') :
    LineWork unselected db db' := by
  unfold Business.setDraftLineQuantity at h
  simp only [bind_eq_ok, require_eq_ok, exists_const] at h
  obtain ⟨-, _, -, o, -, line, -, _, -, _, -, hset⟩ := h
  exact setLine hset

/-- Removing a line writes none. -/
theorem removeDraftLine {k lineId : ℕ} (h : Business.removeDraftLine db k lineId = .ok db') :
    LineWork unselected db db' := by
  rw [Business.removeDraftLine_eq_ok h]
  exact deleteLines _ _

/-- Replacing the lines writes lines without a selection. -/
theorem replaceDraftLines {k : ℕ} {inputs : List OrderLineInput}
    (h : Business.replaceDraftOrderLines db k inputs = .ok db') : LineWork True db db' := by
  unfold Business.replaceDraftOrderLines at h
  obtain ⟨lines, -, h⟩ := bind_eq_ok.mp h
  obtain ⟨o, -, rfl, hcreate⟩ := replaceDraftOrderLines_eq_ok h
  exact (deleteLines _ _).trans ((createLines hcreate).mono (fun _ => trivial))

/-- A repeated line is skipped or added from the catalog. -/
theorem repeatLine {customer : ℕ} {catalog : List CatalogProduct} {line : OrderLine}
    {result : Business.RepeatOrderResult} {next : Db × Business.RepeatOrderResult}
    (h : Business.repeatLine rt customer catalog (db, result) line = .ok next) :
    LineWork unselected db next.1 := by
  unfold Business.repeatLine at h
  -- A line that cannot be repeated is skipped; a refused addition is skipped as well.
  cases hoffer : Business.repeatableOffer catalog line with
  | error reason =>
    simp only [hoffer, pure_eq_ok] at h
    exact h ▸ refl db
  | ok offer =>
    simp only [hoffer, bind_eq_ok] at h
    obtain ⟨product, -, h⟩ := h
    split at h
    · rename_i hadd
      rw [pure_eq_ok] at h
      subst h
      exact addCatalogOffer hadd
    · rw [pure_eq_ok] at h
      subst h
      exact refl db
    · rw [throw_eq_ok] at h
      exact h.elim

/-- Repeating an order selects the offer of each line it adds. -/
theorem repeatLines {customer : ℕ} {catalog : List CatalogProduct} (lines : List OrderLine)
    (state : Db × Business.RepeatOrderResult) :
    LineWork unselected state.1 (Business.repeatLines rt customer catalog lines state).1 := by
  induction lines generalizing state with
  | nil => exact refl state.1
  | cons line lines ih =>
    unfold Business.repeatLines
    cases hline : Business.repeatLine rt customer catalog state line with
    | error e => exact refl state.1
    | ok next =>
      have hfirst : LineWork unselected state.1 next.1 := repeatLine hline
      exact hfirst.trans (ih next)

/-- A created order has lines without a selection. -/
theorem createOrder {customer : ℕ} {lines : List OrderLineInput} {r : Db × Order}
    (h : Business.createDraftOrder rt db customer lines = .ok r) : LineWork True db r.1 := by
  unfold Business.createDraftOrder at h
  obtain ⟨draft, -, h⟩ := bind_eq_ok.mp h
  exact createDraft h

/-- **One call.** -/
theorem exec (rt : Runtime) (db : Db) (op : BusinessOp) :
    LineWork (op.LeavesUnselected db) db (op.exec rt db) := by
  -- One case for each operation; a refused one writes nothing.
  cases op with
  | createDraftOrder customer lines =>
    refine Db.commit_of (fun db' hok => ?_) (refl db)
    obtain ⟨r, hr, rfl⟩ := map_eq_ok.mp hok
    exact createOrder hr
  | addCatalogOffer customer product commercialPriceId quantity =>
    refine Db.commit_of (fun db' hok => ?_) (refl db)
    obtain ⟨r, hr, rfl⟩ := map_eq_ok.mp hok
    exact addCatalogOffer hr
  | addProduct customer product quantity =>
    refine Db.commit_of (fun db' hok => ?_) (refl db)
    obtain ⟨r, hr, rfl⟩ := map_eq_ok.mp hok
    exact addProduct hr
  | setDraftLine orderPk orderLineId quantity =>
    exact Db.commit_of (fun db' hok => setDraftLine hok) (refl db)
  | removeDraftLine orderPk orderLineId =>
    exact Db.commit_of (fun db' hok => removeDraftLine hok) (refl db)
  | setDraftProduct orderPk productId quantity =>
    refine Db.commit_of (fun db' hok => ?_) (refl db)
    unfold Business.setDraftProductQuantity at hok
    obtain ⟨line, -, hok⟩ := bind_eq_ok.mp hok
    exact setDraftLine hok
  | removeProduct orderPk productId =>
    refine Db.commit_of (fun db' hok => ?_) (refl db)
    unfold Business.removeProductFromDraftOrder at hok
    obtain ⟨line, -, hok⟩ := bind_eq_ok.mp hok
    exact removeDraftLine hok
  | replaceDraftLines orderPk lines =>
    exact Db.commit_of (fun db' hok => replaceDraftLines hok) (refl db)
  | discardDraft orderPk => exact Db.commit_of (fun db' hok => discardDraft hok) (refl db)
  | repeatOrder customer sourceOrder =>
    show LineWork _ db (Business.repeatOrderIntoDraft rt db customer sourceOrder).1
    unfold Business.repeatOrderIntoDraft
    split
    · exact refl db
    · exact repeatLines _ _
  | placeOrder orderPk user => exact Db.commit_of (fun db' hok => place hok) (refl db)
  | createOrder customer lines user =>
    refine Db.commit_of (fun db' hok => ?_) (refl db)
    unfold Business.createOrder at hok
    obtain ⟨r, hr, hplace⟩ := bind_eq_ok.mp hok
    exact (createOrder hr).trans (place hplace)
  | updatePlacedOrder orderPk lines user =>
    refine Db.commit_of (fun db' hok => ?_) (refl db)
    unfold Business.updatePlacedOrder at hok
    obtain ⟨resolved, hresolved, hok⟩ := bind_eq_ok.mp hok
    exact (updatePlaced hok).mono (fun hadded => ⟨resolved, hresolved, hadded⟩)
  | opsCreateOrder customer lines user =>
    show LineWork True db (OpsPortal.createOrder rt db customer lines user).1
    unfold OpsPortal.createOrder
    split
    · exact refl db
    · rename_i drafted order hcreate
      obtain ⟨draft, -, hcreate⟩ := bind_eq_ok.mp hcreate
      have hdrafted : LineWork True db drafted := createDraft hcreate
      split
      · exact hdrafted
      · rename_i placed hplace
        exact hdrafted.trans (place hplace)
  | opsUpdatePlacedOrder orderPk lines user =>
    refine Db.commit_of (fun db' hok => ?_) (refl db)
    unfold OpsPortal.updatePlacedOrder at hok
    obtain ⟨resolved, hresolved, hok⟩ := bind_eq_ok.mp hok
    exact (updatePlaced hok).mono (fun hadded => ⟨resolved, hresolved, hadded⟩)

/-- A step works on lines the way its move says. -/
theorem step {m : LineMove} (h : LineStep db m db') : LineWork (m.LeavesUnselected db) db db' := by
  cases h with
  | business rt op => exact exec rt db op
  | checkout rt buyer lines => exact Db.commit_of (fun db' hok => checkout hok) (refl db)
  | elsewhere lines => exact ofLines lines

end LineWork

/-! ### References -/

/-- Unique columns and foreign keys: the databases there can be. -/
structure Db.Constrained (db : Db) : Prop where
  sku : ∀ p ∈ db.products, ∀ p' ∈ db.products, p.sku = p'.sku → p = p'
  batchId : ∀ b ∈ db.batches, ∀ b' ∈ db.batches, b.batchId = b'.batchId → b = b'
  offerProduct : ∀ c ∈ db.commercialPrices, ∃ p ∈ db.products, p.pk = c.productId
  offerBatch : ∀ c ∈ db.commercialPrices, ∀ k ∈ c.batchId, ∃ b ∈ db.batches, b.pk = k
  lineOrder : ∀ l ∈ db.lines, ∃ o ∈ db.orders, o.pk = l.orderId
  lineProduct : ∀ l ∈ db.lines, ∃ p ∈ db.products, p.pk = l.productId
  lineOffer : ∀ l ∈ db.lines, ∃ c ∈ db.commercialPrices, c.pk = l.commercialOfferId

/-- The reference names the channel, the product and the batch of the offer. -/
structure OfferRef.Describes (db : Db) (r : OfferRef) (offer : CommercialPrice) : Prop where
  channel : r.channel = offer.channel
  product : ∃ p ∈ db.products, p.pk = offer.productId ∧ r.product = productRef p
  standard : offer.batchId = none → r.batchId = none
  batch : ∀ k, offer.batchId = some k → ∃ b ∈ db.batches, b.pk = k ∧ r.batchId = some b.batchId

section

variable {db : Db}

/-- A product is found by its key. -/
theorem Db.getProduct_eq_ok {k : ℕ} {p : Product} :
    db.getProduct k = .ok p ↔ p ∈ db.products ∧ p.pk = k := by
  simp [Db.getProduct, Table.get?_eq_some]

/-- The reference of an offer describes it. -/
theorem priceRef_describes {price : CommercialPrice} {r : OfferRef}
    (h : priceRef db price = .ok r) : r.Describes db price := by
  unfold priceRef at h
  obtain ⟨p, hp, h⟩ := bind_eq_ok.mp h
  obtain ⟨hp, hpk⟩ := Db.getProduct_eq_ok.mp hp
  -- A standard offer is described without a batch, a batch offer by its batch's id.
  cases hbatch : price.batchId with
  | none =>
    simp only [hbatch, pure_eq_ok] at h
    subst h
    exact ⟨rfl, ⟨p, hp, hpk, rfl⟩, fun _ => rfl, fun k hk => by rw [hbatch] at hk; cases hk⟩
  | some k =>
    simp only [hbatch, bind_eq_ok, pure_eq_ok] at h
    obtain ⟨b, hb, rfl⟩ := h
    obtain ⟨hb, hbk⟩ := Db.getBatch_eq_ok.mp hb
    refine ⟨rfl, ⟨p, hp, hpk, rfl⟩, fun hnone => ?_, fun j hj => ⟨b, hb, ?_, rfl⟩⟩
    · rw [hbatch] at hnone
      cases hnone
    · exact hbk.trans (Option.some.inj (hbatch.symm.trans hj))

/-- Every offer on file has a reference. -/
theorem priceRef_returns (hdb : db.Constrained) {price : CommercialPrice}
    (hprice : price ∈ db.commercialPrices) : ∃ r, priceRef db price = .ok r := by
  obtain ⟨p, hp, hpk⟩ := hdb.offerProduct price hprice
  unfold priceRef
  rw [Db.getProduct_eq_ok.mpr ⟨hp, hpk⟩]
  cases hbatch : price.batchId with
  | none => exact ⟨_, rfl⟩
  | some k =>
    obtain ⟨b, hb, hbk⟩ := hdb.offerBatch price hprice k hbatch
    have hget : db.getBatch k = .ok b := Db.getBatch_eq_ok.mpr ⟨hb, hbk⟩
    refine ⟨⟨price.channel, productRef p, some b.batchId⟩, bind_eq_ok.mpr ⟨p, rfl, ?_⟩⟩
    simp only [bind_eq_ok, pure_eq_ok]
    exact ⟨b, hget, rfl⟩

/-- SKUs and batch ids are unique, so a reference describes one channel, product and batch. -/
theorem OfferRef.Describes.unique (hdb : db.Constrained) {r : OfferRef}
    {offer offer' : CommercialPrice} (h : r.Describes db offer) (h' : r.Describes db offer') :
    offer.channel = offer'.channel ∧ offer.productId = offer'.productId
      ∧ offer.batchId = offer'.batchId := by
  refine ⟨h.channel.symm.trans h'.channel, ?_, ?_⟩
  · obtain ⟨p, hp, hpk, href⟩ := h.product
    obtain ⟨p', hp', hpk', href'⟩ := h'.product
    have hsku : p.sku = p'.sku := congrArg ProductRef.sku (href.symm.trans href')
    rw [← hpk, ← hpk', hdb.sku p hp p' hp' hsku]
  -- SKUs and batch ids are unique, so a reference describes one product and one batch.
  · cases hbatch : offer.batchId with
    | none =>
      have hnone := h.standard hbatch
      cases hbatch' : offer'.batchId with
      | none => rfl
      | some k =>
        obtain ⟨b, -, -, href⟩ := h'.batch k hbatch'
        rw [hnone] at href
        cases href
    | some k =>
      obtain ⟨b, hb, hbk, href⟩ := h.batch k hbatch
      cases hbatch' : offer'.batchId with
      | none =>
        rw [h'.standard hbatch'] at href
        cases href
      | some k' =>
        obtain ⟨b', hb', hbk', href'⟩ := h'.batch k' hbatch'
        have hid : b.batchId = b'.batchId := Option.some.inj (href.symm.trans href')
        rw [← hbk, ← hbk', hdb.batchId b hb b' hb' hid]

/-- The offer of a line is read from its selections. -/
theorem offerRef_eq {l : OrderLine} (h : l.SelectsOffer) :
    offerRef db l = if l.hasSelection = true then (do
        let price ← db.getCommercialPrice l.commercialOfferId
        return some (← priceRef db price))
      else .ok none := by
  unfold offerRef OrderLine.hasSelection
  -- One of the two selections is missing, and the other one is for the line's offer.
  rcases h.one with hnone | hnone
  · rw [hnone]
    cases hretail : l.retailOfferSelection with
    | none => rfl
    | some k =>
      rw [h.retail k hretail]
      rfl
  · rw [hnone]
    cases hbusiness : l.businessOfferSelection with
    | none => rfl
    | some s =>
      rw [h.business s hbusiness]
      rfl

/-! ### The document -/

/-- All lines of the document. -/
def OrderHistoryExport.lineRecords (doc : OrderHistoryExport) : List LineRecord :=
  doc.orders.flatMap OrderRecord.lines

/-- The record of the line says which offer the line is for. -/
def LineRecord.NamesOffer (db : Db) (record : LineRecord) (l : OrderLine) : Prop :=
  ∃ r, record.offer = some r
    ∧ ∃ offer ∈ db.commercialPrices, offer.pk = l.commercialOfferId ∧ r.Describes db offer

variable {dir : Directory} {exportedAt : Time} {doc : OrderHistoryExport}

/-- The record of a line names the line and has its reference. -/
theorem lineRecord_eq_ok {l : OrderLine} {record : LineRecord}
    (h : lineRecord db l = .ok record) :
    record.sourceLineId = l.pk ∧ offerRef db l = .ok record.offer := by
  unfold lineRecord at h
  simp only [bind_eq_ok, pure_eq_ok] at h
  obtain ⟨p, -, offer, hoffer, rfl⟩ := h
  exact ⟨rfl, hoffer⟩

/-- Every line that selects its offer has a record. -/
theorem lineRecord_returns (hdb : db.Constrained) {l : OrderLine} (hl : l ∈ db.lines)
    (hselects : l.SelectsOffer) : ∃ record, lineRecord db l = .ok record := by
  obtain ⟨p, hp, hpk⟩ := hdb.lineProduct l hl
  obtain ⟨offer, hoffer, hofferpk⟩ := hdb.lineOffer l hl
  obtain ⟨r, hr⟩ := priceRef_returns hdb hoffer
  have hreturns : ∃ ref, offerRef db l = .ok ref := by
    rw [offerRef_eq hselects]
    split
    · refine ⟨some r, bind_eq_ok.mpr ⟨offer, Db.getCommercialPrice_eq_ok.mpr ⟨hoffer, hofferpk⟩, ?_⟩⟩
      exact bind_eq_ok.mpr ⟨r, hr, rfl⟩
    · exact ⟨none, rfl⟩
  obtain ⟨ref, href⟩ := hreturns
  unfold lineRecord
  exact ⟨_, bind_eq_ok.mpr ⟨p, Db.getProduct_eq_ok.mpr ⟨hp, hpk⟩,
    bind_eq_ok.mpr ⟨ref, href, rfl⟩⟩⟩

/-- A selected offer is named, and no other is. -/
theorem namesOffer_iff {l : OrderLine} (hselects : l.SelectsOffer) {record : LineRecord}
    (h : lineRecord db l = .ok record) :
    record.NamesOffer db l ↔ l.hasSelection = true := by
  have hoffer := (lineRecord_eq_ok h).2
  rw [offerRef_eq hselects] at hoffer
  -- With a selection the reference is the offer's; without one it is null.
  by_cases hselected : l.hasSelection = true
  · rw [if_pos hselected] at hoffer
    simp only [bind_eq_ok, pure_eq_ok] at hoffer
    obtain ⟨price, hprice, r, hr, hrecord⟩ := hoffer
    obtain ⟨hprice, hpk⟩ := Db.getCommercialPrice_eq_ok.mp hprice
    exact ⟨fun _ => hselected, fun _ => ⟨r, hrecord.symm, price, hprice, hpk, priceRef_describes hr⟩⟩
  · rw [if_neg hselected] at hoffer
    refine ⟨?_, fun h => absurd h hselected⟩
    rintro ⟨r, hr, -⟩
    rw [← Except.ok.inj hoffer] at hr
    cases hr

/-- The record of an order has the records of its lines. -/
theorem orderRecord_eq_ok {o : Order} {record : OrderRecord}
    (h : orderRecord dir db o = .ok record) :
    (db.orderLines o.pk).mapM (lineRecord db) = .ok record.lines := by
  unfold orderRecord at h
  simp only [bind_eq_ok, pure_eq_ok] at h
  obtain ⟨lines, hlines, rfl⟩ := h
  exact hlines

/-- The export has the records of all orders. -/
theorem build_eq_ok (h : buildOrderHistoryExport dir exportedAt db = .ok doc) :
    db.orders.rows.mapM (orderRecord dir db) = .ok doc.orders := by
  unfold buildOrderHistoryExport at h
  simp only [bind_eq_ok, pure_eq_ok] at h
  obtain ⟨orders, horders, rfl⟩ := h
  exact horders

/-- The lines of the document are the records of the lines of the database. -/
theorem mem_lineRecords (hdb : db.Constrained)
    (h : buildOrderHistoryExport dir exportedAt db = .ok doc) {record : LineRecord} :
    record ∈ doc.lineRecords ↔ ∃ l ∈ db.lines, lineRecord db l = .ok record := by
  have horders := build_eq_ok h
  unfold OrderHistoryExport.lineRecords
  rw [List.mem_flatMap]
  -- Every line hangs on an order, so every line is exported.
  constructor
  · rintro ⟨orecord, horecord, hrecord⟩
    obtain ⟨o, -, ho⟩ := exists_of_mem_mapM horders horecord
    obtain ⟨l, hl, hline⟩ := exists_of_mem_mapM (orderRecord_eq_ok ho) hrecord
    exact ⟨l, (Db.mem_orderLines.mp hl).1, hline⟩
  · rintro ⟨l, hl, hline⟩
    obtain ⟨o, ho, hpk⟩ := hdb.lineOrder l hl
    obtain ⟨orecord, horecord⟩ := returns_of_mapM horders o ho
    exact ⟨orecord, (mem_mapM horders).mpr ⟨o, ho, horecord⟩,
      (mem_mapM (orderRecord_eq_ok horecord)).mpr ⟨l, Db.mem_orderLines.mpr ⟨hl, hpk.symm⟩, hline⟩⟩

/-- The export goes through when every line selects its offer. -/
theorem build_returns (hdb : db.Constrained) (hselects : ∀ l ∈ db.lines, l.SelectsOffer)
    (dir : Directory) (exportedAt : Time) :
    ∃ doc, buildOrderHistoryExport dir exportedAt db = .ok doc := by
  have horders : ∀ o ∈ db.orders.rows, ∃ record, orderRecord dir db o = .ok record := by
    intro o _
    have hlines : ∀ l ∈ db.orderLines o.pk, ∃ record, lineRecord db l = .ok record := by
      intro l hl
      have hl := (Db.mem_orderLines.mp hl).1
      exact lineRecord_returns hdb hl (hselects l hl)
    obtain ⟨lines, hlines⟩ := mapM_ok hlines
    unfold orderRecord
    exact ⟨_, bind_eq_ok.mpr ⟨lines, hlines, rfl⟩⟩
  obtain ⟨orders, horders⟩ := mapM_ok horders
  unfold buildOrderHistoryExport
  exact ⟨_, bind_eq_ok.mpr ⟨orders, horders, rfl⟩⟩

end

/-- The selections of a line name its offer, after every run. -/
theorem selectsOffer_of_run {db : Db} {ms : List LineMove} (h : Run LineStep Db.empty ms db) :
    ∀ l ∈ db.lines, l.SelectsOffer :=
  h.invariant (I := fun db => ∀ l ∈ db.lines, l.SelectsOffer)
    (fun _ _ _ hs hstep => (LineWork.step hstep).selectsOffer hs)
    (fun l hl => absurd hl (Table.not_mem_empty l))

/-- Every line has a selection, after a run of calls that leave none without. -/
theorem hasSelection_of_run {db : Db} {ms : List LineMove}
    (h : Run (fun db m db' => ¬ m.LeavesUnselected db ∧ LineStep db m db') Db.empty ms db) :
    ∀ l ∈ db.lines, l.hasSelection = true := by
  refine Run.invariant_of (I := fun db => ∀ l ∈ db.lines, l.hasSelection = true)
    (fun s m t hs hselects hstep => ?_) h (fun l hl => absurd hl (Table.not_mem_empty l))
  exact ((LineWork.step hstep).mono hselects).hasSelection hs

/-- **The export names the offers that were selected.** Every database that the services lead to
    is exported.  A line is exported with the channel, product and batch of its offer if and only
    if a selection hangs on it; in runs without calls that insert lines without selections all
    lines are.  And databases with the same products and batches that are exported to the same
    document agree on the channel, product and batch of the offer of every line that has a
    selection in both. -/
theorem export_names_selected_offers {db : Db} {ms : List LineMove}
    (h : Run LineStep Db.empty ms db) (hdb : db.Constrained) (dir : Directory)
    (exportedAt : Time) :
    (∃ doc, buildOrderHistoryExport dir exportedAt db = .ok doc ∧ ∀ l ∈ db.lines,
      ∃ record ∈ doc.lineRecords, record.sourceLineId = l.pk
        ∧ (record.NamesOffer db l ↔ l.hasSelection = true)) ∧
    (∀ ms' : List LineMove,
      Run (fun db m db' => ¬ m.LeavesUnselected db ∧ LineStep db m db') Db.empty ms' db →
        ∀ l ∈ db.lines, l.hasSelection = true) ∧
    ∀ (db' : Db) (ms' : List LineMove), Run LineStep Db.empty ms' db' → db'.Constrained →
      db'.products = db.products → db'.batches = db.batches →
      ∀ doc : OrderHistoryExport, buildOrderHistoryExport dir exportedAt db = .ok doc →
        buildOrderHistoryExport dir exportedAt db' = .ok doc →
        ∀ l ∈ db.lines, ∀ l' ∈ db'.lines, l.pk = l'.pk →
          l.hasSelection = true → l'.hasSelection = true →
          ∀ offer ∈ db.commercialPrices, offer.pk = l.commercialOfferId →
          ∀ offer' ∈ db'.commercialPrices, offer'.pk = l'.commercialOfferId →
            offer.channel = offer'.channel ∧ offer.productId = offer'.productId
              ∧ offer.batchId = offer'.batchId := by
  have hselects := selectsOffer_of_run h
  refine ⟨?_, fun ms' h' => hasSelection_of_run h', ?_⟩
  · obtain ⟨doc, hdoc⟩ := build_returns hdb hselects dir exportedAt
    refine ⟨doc, hdoc, fun l hl => ?_⟩
    obtain ⟨record, hrecord⟩ := lineRecord_returns hdb hl (hselects l hl)
    exact ⟨record, (mem_lineRecords hdb hdoc).mpr ⟨l, hl, hrecord⟩, (lineRecord_eq_ok hrecord).1,
      namesOffer_iff (hselects l hl) hrecord⟩
  · intro db' ms' h' hdb' hproducts hbatches doc hdoc hdoc' l hl l' hl' hpk hselected hselected'
      offer hoffer hofferpk offer' hoffer' hofferpk'
    have hselects' := selectsOffer_of_run h'
    obtain ⟨record, hrecord⟩ := lineRecord_returns hdb hl (hselects l hl)
    -- the record of the line is a record of the other database, and there of the same line
    obtain ⟨x, hx, hxrecord⟩ := (mem_lineRecords hdb' hdoc').mp
      ((mem_lineRecords hdb hdoc).mpr ⟨l, hl, hrecord⟩)
    have hxpk : x.pk = l'.pk :=
      (lineRecord_eq_ok hxrecord).1.symm.trans ((lineRecord_eq_ok hrecord).1.trans hpk)
    obtain rfl : x = l' := Table.eq_of_pk_eq (t := db'.lines) hx hl' hxpk
    obtain ⟨r, hr, c, hc, hcpk, hdescribes⟩ :=
      (namesOffer_iff (hselects l hl) hrecord).mpr hselected
    obtain ⟨r', hr', c', hc', hcpk', hdescribes'⟩ :=
      (namesOffer_iff (hselects' x hx) hxrecord).mpr hselected'
    obtain rfl : c = offer := Table.eq_of_pk_eq (t := db.commercialPrices) hc hoffer
      (hcpk.trans hofferpk.symm)
    obtain rfl : c' = offer' := Table.eq_of_pk_eq (t := db'.commercialPrices) hc' hoffer'
      (hcpk'.trans hofferpk'.symm)
    obtain rfl : r = r' := Option.some.inj (hr.symm.trans hr')
    have hmoved : r.Describes db c' :=
      ⟨hdescribes'.channel, hproducts ▸ hdescribes'.product, hdescribes'.standard,
        hbatches ▸ hdescribes'.batch⟩
    exact hdescribes.unique hdb hmoved

namespace Shop

/-- The standard business offer, and one at the same price for the first batch. -/
def businessOfferRows (enabled : Bool) : List CommercialPrice :=
  [ ⟨1, 1, none, .business, "", true, [⟨.eur, 1000, none, Nat.zero_lt_succ 999⟩]⟩,
    ⟨2, 1, some 1, .business, "", enabled, [⟨.eur, 1000, none, Nat.zero_lt_succ 999⟩]⟩ ]

/-- The example's rows are in the order of their keys. -/
theorem businessOfferRows_sorted (enabled : Bool) :
    ((businessOfferRows enabled).map Row.pk).Pairwise (· < ·) := by
  cases enabled <;> decide

/-- The example's keys are below the next one. -/
theorem businessOfferRows_bounded (enabled : Bool) : ∀ r ∈ businessOfferRows enabled, Row.pk r < 3 := by
  cases enabled <;> decide

def businessOffers (enabled : Bool) : Table CommercialPrice where
  rows := businessOfferRows enabled
  next := 3
  sorted := businessOfferRows_sorted enabled
  bounded := businessOfferRows_bounded enabled

/-- The opening stock, with the offer for the batch enabled or not. -/
def shelf (enabled : Bool) : Db :=
  { (State.init.after opening).db with commercialPrices := businessOffers enabled }

/-- Three units of an offer are ordered in the ops portal, and the offer for the batch is enabled
    if it was not. -/
def soldInOps (enabled : Bool) (commercialOfferId : ℕ) : Db :=
  { (BusinessOp.opsCreateOrder 7 [⟨commercialOfferId, 3, .stock⟩] none).exec (runtime 1)
      (shelf enabled) with commercialPrices := businessOffers true }

/-- Two units chosen from the catalog. -/
def chosen : Db := (BusinessOp.addCatalogOffer 7 product 2 2).exec (runtime 1) (shelf true)

def directory : Directory where
  customer _ := ⟨"ica@example.se", "Ica"⟩
  customers := 1
  username _ := "ops"
  buyer _ := ⟨"", "", "", "", "", "", ""⟩

/-- The example's shelf is one step from the empty database. -/
theorem shelf_run (enabled : Bool) : Run LineStep Db.empty [.elsewhere] (shelf enabled) :=
  Run.single (.elsewhere (fun l hl => absurd hl (Table.not_mem_empty l)))

/-- The ops order is reached by a run. -/
theorem soldInOps_run (enabled : Bool) (k : ℕ) :
    ∃ ms, Run LineStep Db.empty ms (soldInOps enabled k) := by
  have hsold := (shelf_run enabled).append (Run.single (LineStep.business (runtime 1)
    (.opsCreateOrder 7 [⟨k, 3, .stock⟩] none)))
  exact ⟨_, hsold.append (Run.single (LineStep.elsewhere (fun l hl => hl)))⟩

/-- The ops order keeps the table's constraints. -/
theorem soldInOps_constrained (enabled : Bool) :
    (soldInOps enabled (if enabled = true then 2 else 1)).Constrained := by
  cases enabled <;> constructor <;> decide +kernel

/-- The portal's order is reached by a run. -/
theorem chosen_run : Run LineStep Db.empty
    ([.elsewhere] ++ [.business (runtime 1) (.addCatalogOffer 7 product 2 2)]) chosen :=
  (shelf_run true).append (Run.single (.business (runtime 1) _))

/-- The portal's order keeps the table's constraints. -/
theorem chosen_constrained : chosen.Constrained := by
  constructor <;> decide +kernel

end Shop

/-- The line chosen from the catalog is exported with its offer. -/
theorem export_names_selected_offers_chosen :
    (∃ doc, buildOrderHistoryExport Shop.directory 5 Shop.chosen = .ok doc
      ∧ ∀ l ∈ Shop.chosen.lines, ∃ record ∈ doc.lineRecords, record.sourceLineId = l.pk
        ∧ (record.NamesOffer Shop.chosen l ↔ l.hasSelection = true))
      ∧ ∀ l ∈ Shop.chosen.lines, l.hasSelection = true := by
  have hexport := export_names_selected_offers Shop.chosen_run Shop.chosen_constrained
    Shop.directory 5
  refine ⟨hexport.1, ?_⟩
  decide +kernel

/-- **Offers of the ops portal are exported alike.** The standard offer is sold in one database
    and the offer for the batch in the other; nothing else is different, and there is one export
    for both. -/
theorem ops_offers_exported_alike :
    (∃ ms, Run LineStep Db.empty ms (Shop.soldInOps false 1))
      ∧ (∃ ms, Run LineStep Db.empty ms (Shop.soldInOps true 2))
      ∧ (Shop.soldInOps false 1).Constrained ∧ (Shop.soldInOps true 2).Constrained
      ∧ (∃ l ∈ (Shop.soldInOps false 1).lines, l.commercialOfferId = 1
        ∧ Shop.soldInOps true 2 = { Shop.soldInOps false 1 with
            lines := (Shop.soldInOps false 1).lines.put { l with commercialOfferId := 2 } })
      ∧ (∃ offer ∈ (Shop.soldInOps true 2).commercialPrices,
          ∃ offer' ∈ (Shop.soldInOps true 2).commercialPrices,
            offer.pk = 1 ∧ offer'.pk = 2 ∧ offer.batchId ≠ offer'.batchId)
      ∧ buildOrderHistoryExport Shop.directory 5 (Shop.soldInOps false 1)
          = buildOrderHistoryExport Shop.directory 5 (Shop.soldInOps true 2)
      ∧ (buildOrderHistoryExport Shop.directory 5 (Shop.soldInOps true 2)).isOk = true := by
  refine ⟨Shop.soldInOps_run false 1, Shop.soldInOps_run true 2,
    Shop.soldInOps_constrained false, Shop.soldInOps_constrained true, ?_, ?_, ?_, ?_⟩
  · decide +kernel
  · decide +kernel
  · decide +kernel
  · decide +kernel

end SwedeSweets
