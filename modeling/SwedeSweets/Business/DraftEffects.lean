import SwedeSweets.Business.Drafts
import SwedeSweets.Orders.Effects

namespace SwedeSweets

open Relational Fallible

/-!
# What the mutations of a draft write

One lemma per service: a successful call resizes one line (`OrderLine.SameChoice`), deletes
one, or inserts one, and leaves every other table as it was — except that the first addition
opens the draft (`getOrCreateDraft_eq_ok`).
-/

/-- Another version of the line: what was chosen on it did not change. -/
structure OrderLine.SameChoice (l l' : OrderLine) : Prop where
  pk : l'.pk = l.pk
  order : l'.orderId = l.orderId
  product : l'.productId = l.productId
  offer : l'.commercialOfferId = l.commercialOfferId
  selection : l'.businessOfferSelection = l.businessOfferSelection

/-- A line chooses what it chooses. -/
theorem OrderLine.SameChoice.refl (l : OrderLine) : l.SameChoice l := ⟨rfl, rfl, rfl, rfl, rfl⟩

/-- A resized line has the new quantity and is otherwise the same. -/
theorem resize_sameChoice {l l' : OrderLine} {q : ℤ} (h : l.resize q = .ok l') :
    l.SameChoice l' ∧ l'.quantityInUnits = q.toNat := by
  obtain ⟨hq, rfl⟩ := OrderLine.resize_eq_ok.mp h
  exact ⟨⟨rfl, rfl, rfl, rfl, rfl⟩, rfl⟩

/-- A line is accepted when its offer is for its product and for the channel of the order. -/
theorem validateCommercialOffer_eq_ok {order : Order} {line : ResolvedOrderLine} {k : ℕ} :
    validateCommercialOffer order line = .ok k ↔
      line.commercialOffer.productId = line.product.pk
        ∧ line.commercialOffer.channel = order.channel ∧ line.commercialOffer.pk = k := by
  unfold validateCommercialOffer
  simp only [bind_eq_ok, require_eq_ok, exists_const, pure_eq_ok]

/-! ### The shared services -/

/-- The rows `createOrderLines` inserts, one for each resolved line. -/
theorem createOrderLines_made {db db' : Db} {order : Order} {lines : List ResolvedOrderLine}
    (h : createOrderLines db order lines = .ok db') :
    ∃ xs : List NewOrderLine, List.Forall₂ (fun line x => newOrderLine order line = .ok x) lines xs
      ∧ db' = { db with lines := db.lines.insertAll (xs.map NewOrderLine.row) } := by
  unfold createOrderLines at h
  simp only [bind_eq_ok, pure_eq_ok] at h
  obtain ⟨-, -, xs, hxs, rfl⟩ := h
  exact ⟨xs, forall₂_of_mapM hxs, rfl⟩

/-- Each row is of the product its offer is for. -/
theorem createOrderLines_of {db db' : Db} {order : Order} {lines : List ResolvedOrderLine}
    (h : createOrderLines db order lines = .ok db') :
    (∀ line ∈ lines, line.commercialOffer.productId = line.product.pk) ∧
      ∃ xs : List NewOrderLine, List.Forall₂ (fun line x => NewOrderLine.Of order line x) lines xs
        ∧ db' = { db with lines := db.lines.insertAll (xs.map NewOrderLine.row) } := by
  obtain ⟨xs, hxs, hdb⟩ := createOrderLines_made h
  refine ⟨fun line hline => ?_, xs, hxs.imp (fun _ _ hline => newOrderLine_of hline), hdb⟩
  unfold createOrderLines at h
  simp only [bind_eq_ok] at h
  obtain ⟨ks, hvalid, -⟩ := h
  obtain ⟨k, hk⟩ := returns_of_mapM hvalid line hline
  exact (validateCommercialOffer_eq_ok.mp hk).1

/-- Adding a line inserts one row on a draft. -/
theorem addDraftOrderLine_eq_ok {db db' : Db} {k : ℕ} {line : ResolvedOrderLine}
    (h : addDraftOrderLine db k line = .ok db') :
    line.commercialOffer.productId = line.product.pk ∧
      ∃ o ∈ db.orders, o.pk = k ∧ o.status = .draft ∧ line.commercialOffer.channel = o.channel ∧
        ∃ x : NewOrderLine, x.Of o line ∧ db' = { db with lines := db.lines.insert x.row } := by
  unfold addDraftOrderLine requireDraftForEdit at h
  simp only [lockedOrder_eq_ok, requireStatus_eq_ok, bind_eq_ok, pure_eq_ok,
    validateCommercialOffer_eq_ok] at h
  obtain ⟨o, ho, hk, hst, -, -, j, ⟨hproduct, hch, -⟩, x, hx, rfl⟩ := h
  exact ⟨hproduct, o, ho, hk, hst, hch, x, newOrderLine_of hx, rfl⟩

/-- Setting a quantity writes another version of the line of a draft. -/
theorem setDraftOrderLineQuantity_eq_ok {db db' : Db} {k lineId : ℕ} {q : ℤ}
    (h : setDraftOrderLineQuantity db k lineId q = .ok db') :
    ∃ l ∈ db.orderLines k, l.pk = lineId ∧ ∃ l', l.SameChoice l' ∧ l'.quantityInUnits = q.toNat
      ∧ db' = { db with lines := db.lines.put l' } := by
  unfold setDraftOrderLineQuantity requireDraftForEdit at h
  simp only [lockedOrder_eq_ok, requireStatus_eq_ok, bind_eq_ok, pure_eq_ok] at h
  obtain ⟨o, -, rfl, -, -, -, l, hl, l', hl', rfl⟩ := h
  obtain ⟨hmem, hpk⟩ := findOrderLine_eq_ok hl
  obtain ⟨hsame, hq⟩ := resize_sameChoice hl'
  exact ⟨l, hmem, hpk, l', hsame, hq, rfl⟩

/-- Removing a line deletes it, with what hangs on it. -/
theorem removeDraftOrderLine_eq_ok {db db' : Db} {k lineId : ℕ}
    (h : removeDraftOrderLine db k lineId = .ok db') : db' = db.deleteLines [lineId] := by
  unfold removeDraftOrderLine requireDraftForEdit at h
  simp only [lockedOrder_eq_ok, requireStatus_eq_ok, bind_eq_ok, pure_eq_ok] at h
  obtain ⟨o, -, rfl, -, l, hl, rfl⟩ := h
  rw [(findOrderLine_eq_ok hl).2]

/-- Replacing the lines of a draft deletes them and creates the resolved ones. -/
theorem replaceDraftOrderLines_eq_ok {db db' : Db} {k : ℕ} {lines : List ResolvedOrderLine}
    (h : replaceDraftOrderLines db k lines = .ok db') :
    ∃ o ∈ db.orders, o.pk = k ∧
      createOrderLines (db.deleteLines ((db.orderLines k).map OrderLine.pk)) o lines = .ok db' := by
  unfold replaceDraftOrderLines requireDraftForEdit at h
  simp only [lockedOrder_eq_ok, requireStatus_eq_ok] at h
  obtain ⟨o, ho, rfl, -, h⟩ := h
  exact ⟨o, ho, rfl, h⟩

/-! ### Units of lines -/

/-- A usual quantity is at most the maximum for a product. -/
theorem requireUsualQuantity_eq_ok {quantity : ℤ} {u : Unit} :
    requireUsualQuantity quantity = .ok u ↔ quantity ≤ maxQuantityPerProductPerOrder := by
  unfold requireUsualQuantity isUnusuallyLargeOrderLine
  rw [require_eq_ok, decide_eq_false_iff_not, not_lt]

/-! ### The services of the business portal -/

namespace Business

@[simp] theorem lineQuantity_nil : lineQuantity [] = 0 := rfl

/-- The quantity of one line. -/
@[simp] theorem lineQuantity_singleton (l : OrderLine) : lineQuantity [l] = l.quantityInUnits := by
  simp [lineQuantity]

/-- Lines have units. -/
theorem lineQuantity_nonneg (lines : List OrderLine) : 0 ≤ lineQuantity lines := by
  unfold lineQuantity
  refine List.sum_nonneg (fun x hx => ?_)
  obtain ⟨l, -, rfl⟩ := List.mem_map.mp hx
  exact Int.natCast_nonneg _

/-- The draft of a customer is the one there is, or a new order. -/
theorem getOrCreateDraft_eq_ok {rt : Runtime} {db : Db} {customer : ℕ} {r : Db × Order}
    (h : getOrCreateCustomerDraftOrder rt db customer = .ok r) :
    r.2 ∈ r.1.orders ∧ isBusinessDraftOf customer r.2 = true ∧
      (r.1 = db ∨ (db.orders.select (isBusinessDraftOf customer) = [] ∧ r.1 = { db with
        orders := db.orders.insert (newOrder rt .business .eur (some customer)) })) := by
  unfold getOrCreateCustomerDraftOrder at h
  split at h
  -- the oldest open draft is taken
  · rename_i draft rest hsorted
    rw [pure_eq_ok] at h
    subst h
    have hmem : draft ∈ db.orders.select (isBusinessDraftOf customer) := by
      rw [← (List.perm_insertionSort (fun a b : Order => a.createdAt < b.createdAt
        ∨ (a.createdAt = b.createdAt ∧ a.pk ≤ b.pk)) _).mem_iff, hsorted]
      exact List.mem_cons_self ..
    obtain ⟨ho, hdraft⟩ := Table.mem_select.mp hmem
    exact ⟨ho, hdraft, Or.inl rfl⟩
  -- without one, a draft is inserted
  · unfold insertOrder at h
    simp only [if_true, bind_eq_ok, orRaise_eq_ok, Option.some.injEq, exists_eq_left',
      require_eq_ok, exists_const, pure_eq_ok] at h
    obtain ⟨hnone, rfl⟩ := h
    exact ⟨Table.mem_insert.mpr (Or.inr rfl), by simp [isBusinessDraftOf, newOrder],
      Or.inr ⟨hnone, rfl⟩⟩

/-- The row of an explicit line. -/
def explicitRow (x : NewOrderLine) (commercialPriceId : ℕ) : NewRow OrderLine :=
  ⟨fun n => (selectBusinessOffer commercialPriceId).apply (x.row.make n), fun _ => rfl⟩

/-- The explicit line of the offer, if the order has one. -/
def Explicit (db : Db) (o : Order) (product : Product) (commercialPriceId : ℕ) (l : OrderLine) :
    Prop :=
  l ∈ db.orderLines o.pk ∧ l.productId = product.pk
    ∧ l.businessOfferSelection = some (some commercialPriceId)

/-- The line found has an explicit selection of the offer. -/
theorem findLineForOffer_some {db : Db} {o : Order} {product : Product} {k : ℕ} {l : OrderLine}
    (h : findLineForOffer db o product k = some l) : Explicit db o product k l := by
  refine ⟨List.mem_of_find?_eq_some h, ?_⟩
  simpa using List.find?_some h

/-- When no line is found, none has an explicit selection of the offer. -/
theorem findLineForOffer_none {db : Db} {o : Order} {product : Product} {k : ℕ}
    (h : findLineForOffer db o product k = none) : ∀ l, ¬ Explicit db o product k l := by
  rintro l ⟨hl, hproduct, hselection⟩
  have hno := List.find?_eq_none.mp h l hl
  simp [hproduct, hselection] at hno

/-- What a catalog addition writes over the draft it found or opened. -/
inductive CatalogAddition (db : Db) (o : Order) (product : Product) (commercialPriceId : ℕ)
    (quantity availableUnits : ℤ) : Db → Prop where
  | resized {l l' : OrderLine} (found : Explicit db o product commercialPriceId l)
      (same : l.SameChoice l') (total : (l'.quantityInUnits : ℤ) = l.quantityInUnits + quantity)
      (available : (l'.quantityInUnits : ℤ) ≤ availableUnits) :
      CatalogAddition db o product commercialPriceId quantity availableUnits
        { db with lines := db.lines.put l' }
  | inserted {offer : CommercialPrice} {x : NewOrderLine}
      (absent : ∀ l, ¬ Explicit db o product commercialPriceId l)
      (known : offer ∈ db.commercialPrices) (chosen : offer.pk = commercialPriceId)
      (ofProduct : offer.productId = product.pk) (order : x.orderId = o.pk)
      (line : x.productId = product.pk ∧ x.commercialOfferId = commercialPriceId)
      (total : (x.quantityInUnits : ℤ) = quantity) (available : quantity ≤ availableUnits) :
      CatalogAddition db o product commercialPriceId quantity availableUnits
        { db with lines := db.lines.insert (explicitRow x commercialPriceId) }

/-- The explicit line that was found is set to the units asked for. -/
theorem CatalogAddition.of_resize {db db' : Db} {o : Order} {product : Product} {k : ℕ}
    {quantity availableUnits : ℤ} {line : OrderLine} (hpos : 0 < quantity)
    (hfind : findLineForOffer db o product k = some line)
    (havailable : lineQuantity [line] + quantity ≤ availableUnits)
    (hset : setDraftOrderLineQuantity db o.pk line.pk (lineQuantity [line] + quantity) = .ok db') :
    CatalogAddition db o product k quantity availableUnits db' := by
  have hunits : lineQuantity [line] = line.quantityInUnits := by simp [lineQuantity]
  rw [hunits] at havailable hset
  obtain ⟨l, hl, hlpk, l', hsame, hq, rfl⟩ := setDraftOrderLineQuantity_eq_ok hset
  have hfound := findLineForOffer_some hfind
  -- the line resized is the one found
  have hline : l = line := Table.eq_of_pk_eq (t := db.lines) (Db.mem_orderLines.mp hl).1
    (Db.mem_orderLines.mp hfound.1).1 hlpk
  subst hline
  have hlq := l.quantity_pos
  have htotal : (l'.quantityInUnits : ℤ) = l.quantityInUnits + quantity := by
    rw [hq]
    omega
  exact CatalogAddition.resized hfound hsame htotal (htotal ▸ havailable)

/-- No explicit line was found, and one is inserted with its selection. -/
theorem CatalogAddition.of_insert {db db' : Db} {o : Order} {product : Product} {k : ℕ}
    {quantity availableUnits : ℤ} {commercialOffer : CommercialPrice} {price : Option Cents}
    (hpos : 0 < quantity) (hfind : findLineForOffer db o product k = none)
    (havailable : quantity ≤ availableUnits)
    (hcommercial : db.getCommercialPrice k = .ok commercialOffer)
    (hadd : addDraftOrderLine db o.pk ⟨product, quantity, commercialOffer, price⟩ = .ok db') :
    CatalogAddition db o product k quantity availableUnits { db' with
      lines := db'.lines.modify (fun l => l.pk = db.lines.next) (selectBusinessOffer k) } := by
  obtain ⟨hcm, hcpk⟩ := Db.getCommercialPrice_eq_ok.mp hcommercial
  obtain ⟨hproduct, o', ho', ho'pk, -, -, x, hx, rfl⟩ := addDraftOrderLine_eq_ok hadd
  -- the selection is written to the row just inserted
  have htable : (db.lines.insert x.row).modify (fun l => l.pk = db.lines.next)
      (selectBusinessOffer k) = db.lines.insert (explicitRow x k) :=
    Table.modify_insert_next _ _ _ _ (fun l => decide_eq_true_iff)
  rw [htable]
  refine CatalogAddition.inserted (findLineForOffer_none hfind) hcm hcpk hproduct
    (hx.order.trans ho'pk) ⟨hx.product, hx.offer.trans hcpk⟩ ?_ havailable
  rw [hx.quantity]
  exact Int.toNat_of_nonneg (le_of_lt hpos)

/-- The offer found in the catalog is the one asked for. -/
theorem getCatalogOffer_eq_ok {row : CatalogProduct} {k : ℕ} {offer : CatalogOffer}
    (h : getCatalogOffer row k = .ok offer) : offer.commercialPriceId = k := by
  unfold getCatalogOffer at h
  rw [orRaise_eq_ok] at h
  simpa using List.find?_some h

/-- The second half of a catalog addition: the draft is there, and the offer goes on a line
    of it. -/
def addOffer (db : Db) (order : Order) (product : Product) (offer : CatalogOffer)
    (commercialPriceId : ℕ) (quantity : ℤ) : Result Db := do
  let existingLine := findLineForOffer db order product commercialPriceId
  let requestedOfferQuantity := lineQuantity existingLine.toList + quantity
  require (requestedOfferQuantity ≤ offer.availableUnits) (.invalidOrderOperation
    ("only " ++ toString offer.availableUnits
      ++ " units are currently available for this offer"))
  let currentProductQuantity :=
    lineQuantity ((db.orderLines order.pk).filter (fun l => l.productId = product.pk))
  requireUsualQuantity (currentProductQuantity + quantity)
  match existingLine with
  | some line => setDraftOrderLineQuantity db order.pk line.pk requestedOfferQuantity
  | none => do
      let commercialOffer ← db.getCommercialPrice offer.commercialPriceId
      let linePk := db.lines.next
      let db ← addDraftOrderLine db order.pk ⟨product, quantity, commercialOffer, offer.price⟩
      return { db with
        lines := db.lines.modify (fun l => l.pk = linePk)
          (selectBusinessOffer offer.commercialPriceId) }

/-- A catalog addition looks the offer up, finds or opens the draft, and adds the offer. -/
theorem addCatalogOffer_eq (rt : Runtime) (db : Db) (customer : ℕ) (product : Product) (k : ℕ)
    (quantity : ℤ) : addCatalogOfferToDraftOrder rt db customer product k quantity = (do
      require (0 < quantity) (.invalidOrderOperation "quantity must be positive")
      let catalogProduct ← getCatalogProduct rt db product.pk
      let offer ← getCatalogOffer catalogProduct k
      let (db, order) ← getOrCreateCustomerDraftOrder rt db customer
      let db ← addOffer db order product offer k quantity
      return (db, order)) := by
  unfold addCatalogOfferToDraftOrder addOffer
  refine bind_congr (fun _ => bind_congr (fun row => bind_congr (fun offer =>
    bind_congr (fun draft => ?_))))
  obtain ⟨db₁, order⟩ := draft
  cases hfind : findLineForOffer db₁ order product k <;> simp only [hfind, bind_assoc, pure_bind]

/-- What adding an offer to a draft writes. -/
theorem addOffer_eq_ok {db db' : Db} {o : Order} {product : Product} {offer : CatalogOffer} {k : ℕ}
    {quantity : ℤ} (hpos : 0 < quantity) (hpk : offer.commercialPriceId = k)
    (h : addOffer db o product offer k quantity = .ok db') :
    CatalogAddition db o product k quantity offer.availableUnits db' := by
  unfold addOffer at h
  simp only [bind_eq_ok, require_eq_ok, exists_const] at h
  obtain ⟨havailable, -, -, h⟩ := h
  -- a line for the offer grows, or a new one is added
  cases hfind : findLineForOffer db o product k with
  | some line =>
    simp only [hfind] at h havailable
    exact CatalogAddition.of_resize hpos hfind havailable h
  | none =>
    simp only [hfind, bind_eq_ok, pure_eq_ok] at h havailable
    obtain ⟨commercialOffer, hcommercial, db₂, hadd, rfl⟩ := h
    rw [hpk] at hcommercial ⊢
    exact CatalogAddition.of_insert hpos hfind (by simpa [lineQuantity] using havailable)
      hcommercial hadd

/-- **Adding from the catalog.** -/
theorem addCatalogOffer_eq_ok {rt : Runtime} {db : Db} {customer : ℕ} {product : Product} {k : ℕ}
    {quantity : ℤ} {r : Db × Order}
    (h : addCatalogOfferToDraftOrder rt db customer product k quantity = .ok r) :
    0 < quantity ∧ ∃ row offer, getCatalogProduct rt db product.pk = .ok row
      ∧ getCatalogOffer row k = .ok offer ∧ ∃ db₁,
        getOrCreateCustomerDraftOrder rt db customer = .ok (db₁, r.2)
        ∧ CatalogAddition db₁ r.2 product k quantity offer.availableUnits r.1 := by
  rw [addCatalogOffer_eq] at h
  simp only [bind_eq_ok, require_eq_ok, exists_const, pure_eq_ok] at h
  obtain ⟨hpos, row, hrow, offer, hoffer, ⟨db₁, o⟩, hdraft, db₂, hadd, rfl⟩ := h
  exact ⟨hpos, row, offer, hrow, hoffer, db₁, hdraft,
    addOffer_eq_ok hpos (getCatalogOffer_eq_ok hoffer) hadd⟩

/-- **Setting a quantity.** The line keeps what was chosen; it stays within the units that are
    available to it, and the lines of its product within the guardrail. -/
theorem setDraftLineQuantity_eq_ok {rt : Runtime} {db db' : Db} {k lineId : ℕ} {quantity : ℤ}
    (h : setDraftLineQuantity rt db k lineId quantity = .ok db') :
    ∃ l ∈ db.orderLines k, l.pk = lineId ∧ ∃ l', l.SameChoice l'
      ∧ (l'.quantityInUnits : ℤ) = quantity
      ∧ lineQuantity ((db.orderLines k).filter (fun x => x.productId = l.productId && x.pk ≠ l.pk))
        + quantity ≤ maxQuantityPerProductPerOrder
      ∧ requireAvailable rt db l quantity = .ok () ∧ db' = { db with lines := db.lines.put l' } := by
  unfold setDraftLineQuantity at h
  simp only [bind_eq_ok, require_eq_ok, exists_const, requireUsualQuantity_eq_ok] at h
  obtain ⟨hpos, -, -, o, ho, line, hline, husual, u, havailable, hset⟩ := h
  obtain ⟨-, hok⟩ := Db.getOrder_eq_ok.mp ho
  obtain ⟨hmem, hpk⟩ := findOrderLine_eq_ok hline
  obtain ⟨l, hl, hlpk, l', hsame, hq, rfl⟩ := setDraftOrderLineQuantity_eq_ok hset
  -- the line written is the one that was checked
  have heq : l = line := Table.eq_of_pk_eq (t := db.lines) (Db.mem_orderLines.mp hl).1
    (Db.mem_orderLines.mp hmem).1 hlpk
  subst heq
  rw [hok] at hl husual
  exact ⟨l, hl, hpk, l', hsame, by rw [hq]; exact Int.toNat_of_nonneg (le_of_lt hpos), husual,
    havailable, rfl⟩

/-- Removing a line deletes it. -/
theorem removeDraftLine_eq_ok {db db' : Db} {k lineId : ℕ}
    (h : removeDraftLine db k lineId = .ok db') : db' = db.deleteLines [lineId] := by
  unfold removeDraftLine at h
  simp only [bind_eq_ok] at h
  obtain ⟨-, -, h⟩ := h
  exact removeDraftOrderLine_eq_ok h

end Business

end SwedeSweets
