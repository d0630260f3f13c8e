import SwedeSweets.Business.Edits
import SwedeSweets.Guarantees.Stock

namespace SwedeSweets

open Relational Fallible Transition

/-!
# The lines of a business order

Every way to create and edit the lines of a business order, in any order (`BusinessStep`), with
anything else happening in between (`Elsewhere`).

* `one_line_per_offer` — an order has at most one explicit and at most one legacy line for an
  offer, and an edit of the order is refused for a duplicate only when it has both;
* `explicit_beside_legacy` — an order that has both, and cannot be edited once it is placed.
-/

/-! ### Runs -/

/-- One call that writes the lines of a business order. -/
inductive BusinessOp where
  | createDraftOrder (customer : ℕ) (lines : List OrderLineInput)
  | addCatalogOffer (customer : ℕ) (product : Product) (commercialPriceId : ℕ) (quantity : ℤ)
  | addProduct (customer : ℕ) (product : Product) (quantity : ℤ)
  | setDraftLine (orderPk orderLineId : ℕ) (quantity : ℤ)
  | removeDraftLine (orderPk orderLineId : ℕ)
  | setDraftProduct (orderPk productId : ℕ) (quantity : ℤ)
  | removeProduct (orderPk productId : ℕ)
  | replaceDraftLines (orderPk : ℕ) (lines : List OrderLineInput)
  | discardDraft (orderPk : ℕ)
  | repeatOrder (customer : ℕ) (sourceOrder : Order)
  | placeOrder (orderPk : ℕ) (user : Option ℕ)
  | createOrder (customer : ℕ) (lines : List OrderLineInput) (user : Option ℕ)
  | updatePlacedOrder (orderPk : ℕ) (lines : List OrderLineInput) (user : Option ℕ)
  | opsCreateOrder (customer : ℕ) (lines : List BusinessOfferLineInput) (user : Option ℕ)
  | opsUpdatePlacedOrder (orderPk : ℕ) (lines : List BusinessOfferLineInput) (user : Option ℕ)

/-- The database after a call; what a transaction raises is rolled back. -/
def BusinessOp.exec (rt : Runtime) (db : Db) : BusinessOp → Db
  | .createDraftOrder customer lines =>
      db.commit ((Business.createDraftOrder rt db customer lines).map Prod.fst)
  | .addCatalogOffer customer product commercialPriceId quantity =>
      db.commit ((Business.addCatalogOfferToDraftOrder rt db customer product commercialPriceId
        quantity).map Prod.fst)
  | .addProduct customer product quantity =>
      db.commit ((Business.addProductToDraftOrder rt db customer product quantity).map Prod.fst)
  | .setDraftLine orderPk orderLineId quantity =>
      db.commit (Business.setDraftLineQuantity rt db orderPk orderLineId quantity)
  | .removeDraftLine orderPk orderLineId =>
      db.commit (Business.removeDraftLine db orderPk orderLineId)
  | .setDraftProduct orderPk productId quantity =>
      db.commit (Business.setDraftProductQuantity rt db orderPk productId quantity)
  | .removeProduct orderPk productId =>
      db.commit (Business.removeProductFromDraftOrder db orderPk productId)
  | .replaceDraftLines orderPk lines =>
      db.commit (Business.replaceDraftOrderLines db orderPk lines)
  | .discardDraft orderPk => db.commit (Business.discardDraftOrder db orderPk)
  | .repeatOrder customer sourceOrder =>
      (Business.repeatOrderIntoDraft rt db customer sourceOrder).1
  | .placeOrder orderPk user => db.commit (Business.placeOrder rt db orderPk user)
  | .createOrder customer lines user =>
      db.commit (Business.createOrder rt db customer lines user)
  | .updatePlacedOrder orderPk lines user =>
      db.commit (Business.updatePlacedOrder rt db orderPk lines user)
  | .opsCreateOrder customer lines user => (OpsPortal.createOrder rt db customer lines user).1
  | .opsUpdatePlacedOrder orderPk lines user =>
      db.commit (OpsPortal.updatePlacedOrder rt db orderPk lines user)

/-- Anything else that happens: stock, reservations, prices, the status of orders.  An offer
    that a line names stays an offer of its product. -/
structure Elsewhere (db db' : Db) : Prop where
  lines : db'.lines = db.lines
  orders : ∀ o ∈ db.orders, ∃ o' ∈ db'.orders, o'.pk = o.pk
  offers : ∀ o' ∈ db'.commercialPrices, (∃ o ∈ db.commercialPrices, o.pk = o'.pk
    ∧ o.productId = o'.productId) ∨ ∀ l ∈ db.lines, l.commercialOfferId ≠ o'.pk

inductive BusinessMove where
  | call (rt : Runtime) (op : BusinessOp)
  | elsewhere

inductive BusinessStep : Db → BusinessMove → Db → Prop where
  | call {db : Db} (rt : Runtime) (op : BusinessOp) :
      BusinessStep db (.call rt op) (op.exec rt db)
  | elsewhere {db db' : Db} : Elsewhere db db' → BusinessStep db .elsewhere db'

/-! ### Each call keeps the lines apart -/

namespace OneLinePerOffer

variable {rt : Runtime} {db db' : Db}

/-- A write to other tables. -/
theorem elsewhere (h : OneLinePerOffer db) (he : Elsewhere db db') : OneLinePerOffer db' where
  references l hl := by
    obtain ⟨o, ho, hpk⟩ := h.references l (he.lines ▸ hl)
    obtain ⟨o', ho', hpk'⟩ := he.orders o ho
    exact ⟨o', ho', hpk'.trans hpk⟩
  product l hl o' ho' hpk := by
    have hl : l ∈ db.lines := he.lines ▸ hl
    rcases he.offers o' ho' with ⟨o, ho, hopk, hproduct⟩ | hnone
    · exact hproduct.symm.trans (h.product l hl o ho (hopk.trans hpk))
    · exact absurd hpk.symm (hnone l hl)
  selection l hl := h.selection l (he.lines ▸ hl)
  unique l hl l' hl' := h.unique l (he.lines ▸ hl) l' (he.lines ▸ hl')

/-- The resolved lines may be created on an order without legacy lines for their offers. -/
theorem createLines (h : OneLinePerOffer db) {o : Order} (ho : o ∈ db.orders)
    {lines : List ResolvedOrderLine} (hlines : ResolvedLines db lines)
    (hnew : ∀ line ∈ lines, ∀ l ∈ db.orderLines o.pk,
      l.commercialOfferId = line.commercialOffer.pk → l.isExplicit = true)
    (hok : createOrderLines db o lines = .ok db') : OneLinePerOffer db' := by
  obtain ⟨hproduct, xs, hxs, rfl⟩ := createOrderLines_of hok
  have hrow : ∀ x ∈ xs, ∃ line ∈ lines, x.Of o line := forall₂_right hxs
  -- The new lines are for the resolved offers, which are distinct.
  have hoffers : xs.map NewOrderLine.commercialOfferId
      = lines.map (fun line => line.commercialOffer.pk) :=
    map_eq_of_forall₂ hxs (fun line x hx => hx.offer)
  refine h.insertAll ⟨o, ho, rfl⟩ (fun x hx => ?_) (fun x hx offer hoffer hpk => ?_)
    (hoffers ▸ hlines.distinct) (fun x hx l hl hlk hoffer => ?_)
  · obtain ⟨line, -, hof⟩ := hrow x hx
    exact hof.order
  · obtain ⟨line, hmem, hof⟩ := hrow x hx
    have heq : offer = line.commercialOffer :=
      Table.eq_of_pk_eq (t := db.commercialPrices) hoffer (hlines.known line hmem)
        (hpk.trans hof.offer)
    rw [heq, hproduct line hmem, hof.product]
  · obtain ⟨line, hmem, hof⟩ := hrow x hx
    exact hnew line hmem l (Db.mem_orderLines.mpr ⟨hl, hlk⟩) (hoffer.trans hof.offer)

/-- A new order has no lines. -/
theorem noLines (h : OneLinePerOffer db) : db.orderLines db.orders.next = [] :=
  Db.orderLines_of_fresh h.references Inv.fresh_next

/-- A new draft has one line for each offer. -/
theorem createDraft (h : OneLinePerOffer db) {draft : OrderDraft} {r : Db × Order}
    (hlines : ResolvedLines db draft.lines)
    (hok : SwedeSweets.createDraftOrder rt db draft = .ok r) : OneLinePerOffer r.1 := by
  unfold SwedeSweets.createDraftOrder at hok
  simp only [bind_eq_ok, require_eq_ok, exists_const, pure_eq_ok] at hok
  obtain ⟨-, ⟨db₁, o⟩, hinsert, db₂, hcreate, rfl⟩ := hok
  have hnone := h.noLines
  obtain ⟨rfl, rfl⟩ := Prod.mk.inj (Inv.insertOrder_eq_ok hinsert)
  have hopened : OneLinePerOffer { db with
      orders := db.orders.insert (newOrder rt draft.channel draft.currency draft.customer) } :=
    h.frame (fun x hx => ⟨x, Table.mem_insert.mpr (Or.inl hx), rfl⟩) rfl rfl
  refine hopened.createLines (Table.mem_insert.mpr (Or.inr rfl)) ⟨hlines.known, hlines.distinct⟩
    (fun line _ l hl => ?_) hcreate
  have hl : l ∈ db.orderLines db.orders.next := hl
  rw [hnone] at hl
  cases hl

/-- An opened draft is on file. -/
theorem openDraft (h : OneLinePerOffer db) {customer : ℕ} {r : Db × Order}
    (hok : Business.getOrCreateCustomerDraftOrder rt db customer = .ok r) :
    OneLinePerOffer r.1 ∧ r.2 ∈ r.1.orders := by
  obtain ⟨ho, -, hdb | ⟨-, hdb⟩⟩ := Business.getOrCreateDraft_eq_ok hok
  · exact ⟨hdb ▸ h, ho⟩
  · rw [hdb] at ho ⊢
    exact ⟨h.frame (fun x hx => ⟨x, Table.mem_insert.mpr (Or.inl hx), rfl⟩) rfl rfl, ho⟩

/-- Another version of a line. -/
theorem putLine (h : OneLinePerOffer db) {l l' : OrderLine} (hl : l ∈ db.lines)
    (hsame : l.SameChoice l') : OneLinePerOffer { db with lines := db.lines.put l' } :=
  h.shrink (fun o ho => ⟨o, ho, rfl⟩) rfl (Shrinks.put hl hsame)

/-- Deleting lines leaves no more than there were. -/
theorem deleteLines (h : OneLinePerOffer db) (pks : List ℕ) : OneLinePerOffer (db.deleteLines pks) :=
  h.shrink (fun o ho => ⟨o, ho, rfl⟩) rfl (Shrinks.delete _ _)

/-- A catalog addition finds the explicit line of its offer, if there is one. -/
theorem addition (h : OneLinePerOffer db) {o : Order} {product : Product} {k : ℕ}
    {quantity availableUnits : ℤ} (ho : o ∈ db.orders)
    (hadd : Business.CatalogAddition db o product k quantity availableUnits db') :
    OneLinePerOffer db' := by
  -- The explicit line of the offer is resized, or a first one is inserted.
  cases hadd with
  | resized found same _ _ => exact h.putLine (Db.mem_orderLines.mp found.1).1 same
  | @inserted commercialOffer x absent known chosen ofProduct order line _ _ =>
    refine h.insert (Business.explicitRow x k) rfl ⟨o, ho, order.symm⟩ ?_ ?_ ?_
    · intro x' hx' hpk
      have heq : x' = commercialOffer := Table.eq_of_pk_eq (t := db.commercialPrices) hx' known
        (hpk.trans (line.2.trans chosen.symm))
      rw [heq, ofProduct]
      exact line.1.symm
    · intro s hs
      have hs : some (some k) = some s := hs
      rw [← Option.some.inj hs]
      exact congrArg some line.2.symm
    · -- an explicit line for the offer would have been found
      intro l hl hlo hoffer hexplicit
      have hoffer : l.commercialOfferId = k := hoffer.trans line.2
      obtain ⟨s, hs⟩ := Option.isSome_iff_exists.mp (hexplicit.trans rfl)
      have hsel := h.selection l hl s hs
      have hproduct := h.product l hl commercialOffer known (chosen.trans hoffer.symm)
      refine absent l ⟨Db.mem_orderLines.mpr ⟨hl, hlo.trans order⟩, hproduct.symm.trans ofProduct, ?_⟩
      rw [hs, hsel, hoffer]

/-- **Adding an offer.** -/
theorem addCatalogOffer (h : OneLinePerOffer db) {customer : ℕ} {product : Product} {k : ℕ}
    {quantity : ℤ} {r : Db × Order}
    (hok : Business.addCatalogOfferToDraftOrder rt db customer product k quantity = .ok r) :
    OneLinePerOffer r.1 := by
  obtain ⟨-, row, offer, -, -, db₁, hdraft, hadd⟩ := Business.addCatalogOffer_eq_ok hok
  obtain ⟨h₁, ho⟩ := h.openDraft hdraft
  exact h₁.addition ho hadd

/-- A product addition finds the legacy line of the product, if there is one. -/
theorem addProduct (h : OneLinePerOffer db) {customer : ℕ} {product : Product} {quantity : ℤ}
    {r : Db × Order}
    (hok : Business.addProductToDraftOrder rt db customer product quantity = .ok r) :
    OneLinePerOffer r.1 := by
  unfold Business.addProductToDraftOrder Business.resolveStandardBusinessOffer at hok
  simp only [bind_eq_ok, require_eq_ok, exists_const, orRaise_eq_ok, pure_eq_ok] at hok
  obtain ⟨-, -, standard, ⟨offer, hoffer, -, rfl⟩, ⟨db₁, o⟩, hdraft, -, -, -, -, hok⟩ := hok
  obtain ⟨h₁, ho⟩ := h.openDraft hdraft
  obtain ⟨hknown, hproduct⟩ := standardBusinessOffer_some hoffer
  have hoffers : db₁.commercialPrices = db.commercialPrices := by
    obtain ⟨-, -, hdb | ⟨-, hdb⟩⟩ := Business.getOrCreateDraft_eq_ok hdraft
    · rw [show db₁ = db from hdb]
    · rw [show db₁ = _ from hdb]
  -- The legacy line of the product is resized, or a first one is inserted.
  cases hfind : Business.findLegacyLine db₁ o.pk product.pk with
  | some line =>
    simp only [hfind, bind_eq_ok, pure_eq_ok] at hok
    obtain ⟨db₂, hset, rfl⟩ := hok
    obtain ⟨l, hl, -, l', hsame, -, rfl⟩ := setDraftOrderLineQuantity_eq_ok hset
    exact h₁.putLine (Db.mem_orderLines.mp hl).1 hsame
  | none =>
    simp only [hfind, bind_eq_ok, pure_eq_ok] at hok
    obtain ⟨db₂, hadd, rfl⟩ := hok
    obtain ⟨-, o', ho', hpk, -, -, x, hx, rfl⟩ := addDraftOrderLine_eq_ok hadd
    have horder : x.orderId = o.pk := hx.order.trans hpk
    have hx : x.commercialOfferId = offer.pk ∧ x.productId = product.pk := ⟨hx.offer, hx.product⟩
    refine h₁.insert x.row rfl ⟨o, ho, horder.symm⟩ ?_ (fun s hs => (by cases hs)) ?_
    · intro y hy hyk
      have heq : y = offer := Table.eq_of_pk_eq (t := db.commercialPrices) (hoffers ▸ hy) hknown
        (hyk.trans hx.1)
      rw [heq, hproduct]
      exact hx.2.symm
    · -- a legacy line for the offer is one of the product
      intro l hl hlo hloffer hexplicit
      have hlproduct := h₁.product l hl offer (hoffers ▸ hknown) (hloffer.trans hx.1).symm
      have hno := List.find?_eq_none.mp hfind l (Db.mem_orderLines.mpr ⟨hl, hlo.trans horder⟩)
      have hlegacy : l.businessOfferSelection.isNone = true := by
        have hnone : l.businessOfferSelection.isSome = false := hexplicit
        rw [← Option.not_isSome, hnone]
        rfl
      simp [← hlproduct, hproduct, hlegacy] at hno

/-- **Changing a line's quantity.** -/
theorem setDraftLine (h : OneLinePerOffer db) {k lineId : ℕ} {quantity : ℤ}
    (hok : Business.setDraftLineQuantity rt db k lineId quantity = .ok db') : OneLinePerOffer db' := by
  obtain ⟨l, hl, -, l', hsame, -, -, -, rfl⟩ := Business.setDraftLineQuantity_eq_ok hok
  exact h.putLine (Db.mem_orderLines.mp hl).1 hsame

/-- **Removing a line.** -/
theorem removeDraftLine (h : OneLinePerOffer db) {k lineId : ℕ}
    (hok : Business.removeDraftLine db k lineId = .ok db') : OneLinePerOffer db' := by
  rw [Business.removeDraftLine_eq_ok hok]
  exact h.deleteLines _

/-- Deleting the lines of an order leaves none of them. -/
theorem lines_deleted (k : ℕ) :
    ∀ l ∈ (db.deleteLines ((db.orderLines k).map OrderLine.pk)).lines, l.orderId ≠ k := by
  intro l hl horder
  obtain ⟨hl, hgone⟩ := Table.mem_delete.mp hl
  have hmem : l.pk ∈ (db.orderLines k).map OrderLine.pk :=
    List.mem_map.mpr ⟨l, Db.mem_orderLines.mpr ⟨hl, horder⟩, rfl⟩
  rw [List.contains_iff_mem.mpr hmem] at hgone
  cases hgone

/-- **Replacing a draft's lines.** -/
theorem replaceDraftLines (h : OneLinePerOffer db) {k : ℕ} {inputs : List OrderLineInput}
    (hok : Business.replaceDraftOrderLines db k inputs = .ok db') : OneLinePerOffer db' := by
  unfold Business.replaceDraftOrderLines at hok
  simp only [bind_eq_ok] at hok
  obtain ⟨lines, hlines, hok⟩ := hok
  obtain ⟨o, ho, rfl, hcreate⟩ := replaceDraftOrderLines_eq_ok hok
  have hresolved := resolveBusinessOrderLines_resolved hlines
  refine (h.deleteLines _).createLines ho ⟨hresolved.known, hresolved.distinct⟩
    (fun line _ l hl => ?_) hcreate
  obtain ⟨hl, horder⟩ := Db.mem_orderLines.mp hl
  exact absurd horder (lines_deleted o.pk l hl)

/-- Discarding a draft deletes it with its lines. -/
theorem discardDraft (h : OneLinePerOffer db) {k : ℕ}
    (hok : Business.discardDraftOrder db k = .ok db') : OneLinePerOffer db' := by
  unfold Business.discardDraftOrder SwedeSweets.discardDraftOrder requireDraftForDiscard
    requireOrderWithoutReservationsBeforeDiscard at hok
  simp only [lockedOrder_eq_ok, requireStatus_eq_ok, bind_eq_ok, require_eq_ok, exists_const,
    pure_eq_ok] at hok
  obtain ⟨o, -, rfl, -, db₁, ⟨-, rfl⟩, rfl⟩ := hok
  have hdeleted := h.deleteLines ((db.orderLines o.pk).map OrderLine.pk)
  refine ⟨fun l hl => ?_, hdeleted.product, hdeleted.selection, hdeleted.unique⟩
  obtain ⟨x, hx, hpk⟩ := hdeleted.references l hl
  refine ⟨x, Table.mem_delete.mpr ⟨hx, ?_⟩, hpk⟩
  simpa using fun hxo : x.pk = o.pk => lines_deleted o.pk l hl (hpk.symm.trans hxo)

/-- A repeated line is skipped or added from the catalog. -/
theorem repeatLine {customer : ℕ} {catalog : List CatalogProduct} {line : OrderLine}
    {result : Business.RepeatOrderResult} {next : Db × Business.RepeatOrderResult}
    (h : OneLinePerOffer db)
    (hok : Business.repeatLine rt customer catalog (db, result) line = .ok next) :
    OneLinePerOffer next.1 := by
  unfold Business.repeatLine at hok
  -- Only a repeatable line changes the draft.
  cases hoffer : Business.repeatableOffer catalog line with
  | error reason =>
    simp only [hoffer, pure_eq_ok] at hok
    exact hok ▸ h
  | ok offer =>
    simp only [hoffer, bind_eq_ok] at hok
    obtain ⟨product, -, hok⟩ := hok
    split at hok
    · rename_i hadd
      rw [pure_eq_ok] at hok
      subst hok
      exact h.addCatalogOffer hadd
    · rw [pure_eq_ok] at hok
      subst hok
      exact h
    · rw [throw_eq_ok] at hok
      exact hok.elim

/-- **Repeating an order.** -/
theorem repeatLines {customer : ℕ} {catalog : List CatalogProduct} (lines : List OrderLine)
    (state : Db × Business.RepeatOrderResult) (h : OneLinePerOffer state.1) :
    OneLinePerOffer (Business.repeatLines rt customer catalog lines state).1 := by
  induction lines generalizing state with
  | nil => exact h
  | cons line lines ih =>
    unfold Business.repeatLines
    cases hline : Business.repeatLine rt customer catalog state line with
    | error e => exact h
    | ok next => exact ih next (h.repeatLine hline)

/-- Saving an order loses none. -/
theorem saved_orders {o o' : Order} (ho : o ∈ db.orders) (hpk : o'.pk = o.pk) :
    ∀ x ∈ db.orders, ∃ x' ∈ (db.saveOrder o').orders, x'.pk = x.pk := by
  intro x hx
  obtain ⟨x', hx', hpk', -⟩ :=
    Table.evolves_put (R := fun _ _ => True) (fun _ => trivial) ho hpk trivial x hx
  exact ⟨x', hx', hpk'⟩

/-- Reserving and placing leave the lines alone. -/
theorem place (h : OneLinePerOffer db) {k : ℕ} {user : Option ℕ}
    (hok : Business.placeOrder rt db k user = .ok db') : OneLinePerOffer db' := by
  obtain ⟨o, ho, rfl, -, db₁, hprep, rfl⟩ := placeOrder_eq_ok.mp hok
  obtain ⟨-, -, xs, rfl, -⟩ := Inv.prepareBusiness_eq_ok hprep
  exact h.frame (saved_orders ho rfl) rfl rfl

/-- Diffing lines by offer adds lines for new offers only. -/
theorem replaceLines (h : OneLinePerOffer db) {o : Order} (ho : o ∈ db.orders)
    {lines : List ResolvedOrderLine} (hlines : ResolvedLines db lines)
    (hok : SwedeSweets.replaceLines db o
      (lines.map (fun line => (line.commercialOffer.pk, line)))
      ((db.orderLines o.pk).map (fun l => (l.commercialOfferId, l))) = .ok db') :
    OneLinePerOffer db' := by
  obtain ⟨retained, hretained, hcreate⟩ := replaceLines_eq_ok_iff.mp hok
  have hversions : ∀ l' ∈ retained, ∃ l ∈ db.lines, l.SameChoice l' := by
    intro l' hl'
    obtain ⟨e, he, hresize⟩ := exists_of_mem_mapM hretained hl'
    exact ⟨e.1, (Db.mem_orderLines.mp (orderLine_of_retained he)).1, (resize_sameChoice hresize).1⟩
  have hput : OneLinePerOffer { db with lines := retained.foldl Table.put db.lines } :=
    h.shrink (fun x hx => ⟨x, hx, rfl⟩) rfl (Shrinks.putAll hversions)
  -- the new lines are some of the incoming ones
  have hsub : ∀ p : ℕ × ResolvedOrderLine → Bool,
      (((lines.map (fun line => (line.commercialOffer.pk, line))).filter p).map Prod.snd).Sublist
        lines := by
    intro p
    have hmap := (List.filter_sublist (p := p)
      (l := lines.map (fun line => (line.commercialOffer.pk, line)))).map Prod.snd
    rwa [List.map_map, show Prod.snd ∘ (fun line : ResolvedOrderLine => (line.commercialOffer.pk, line))
      = id from rfl, List.map_id] at hmap
  refine (hput.deleteLines _).createLines ho
    ⟨fun line hline => hlines.known line ((hsub _).subset hline),
      hlines.distinct.sublist ((hsub _).map _)⟩ (fun line hline l hl hoffer => ?_) hcreate
  obtain ⟨e, he, rfl⟩ := List.mem_map.mp hline
  obtain ⟨he, hnew⟩ := List.mem_filter.mp he
  obtain ⟨line, -, rfl⟩ := List.mem_map.mp he
  -- an old line for the offer would have been found
  obtain ⟨hl, hlo⟩ := Db.mem_orderLines.mp hl
  obtain ⟨x, hx, hsame⟩ := Shrinks.putAll hversions l (Table.mem_delete.mp hl).1
  have hmem : x ∈ db.orderLines o.pk := Db.mem_orderLines.mpr ⟨hx, hsame.order.symm.trans hlo⟩
  rw [Option.isNone_iff_eq_none, List.lookup_eq_none_iff] at hnew
  have hne := hnew _ (List.mem_map.mpr ⟨x, hmem, rfl⟩)
  simp [← hsame.offer, hoffer] at hne

/-- **Editing a PLACED order.** -/
theorem updatePlaced (h : OneLinePerOffer db) {k : ℕ} {lines : List ResolvedOrderLine}
    {user : Option ℕ} (hlines : ResolvedLines db lines)
    (hok : SwedeSweets.updatePlacedOrder rt db k lines clearOrderReservationsBeforeLineReplacement
      (prepareBusinessOrderForPlacement rt) user = .ok db') : OneLinePerOffer db' := by
  obtain ⟨o, ho, rfl, -, incoming, existing, hin, hex, db₁, db₂, db₃, hclear, hrep, hprep, rfl⟩ :=
    updatePlacedOrder_eq_ok hok
  simp only [clearOrderReservationsBeforeLineReplacement, pure_eq_ok] at hclear
  subst hclear
  rw [(incomingByOfferId_eq_ok.mp hin).2.2, Inv.existingByOfferId_eq_ok hex] at hrep
  have hcleared : OneLinePerOffer (deleteReservationsForOrder db o.pk) :=
    h.frame (fun x hx => ⟨x, hx, rfl⟩) rfl rfl
  -- Replacing lines gives each incoming offer one line.
  have hreplaced : OneLinePerOffer db₂ :=
    hcleared.replaceLines ho ⟨hlines.known, hlines.distinct⟩ hrep
  have horders : db₂.orders = db.orders := by
    unfold SwedeSweets.replaceLines at hrep
    simp only [bind_eq_ok] at hrep
    obtain ⟨retained, -, hcreate⟩ := hrep
    obtain ⟨-, xs, -, rfl⟩ := createOrderLines_of hcreate
    rfl
  have hkept : o ∈ db₂.orders := horders ▸ ho
  obtain ⟨-, -, xs, rfl, -⟩ := Inv.prepareBusiness_eq_ok hprep
  exact hreplaced.frame (saved_orders hkept rfl) rfl rfl

/-- **One call.** -/
theorem exec (h : OneLinePerOffer db) (rt : Runtime) (op : BusinessOp) :
    OneLinePerOffer (op.exec rt db) := by
  have hdraft : ∀ {customer : ℕ} {lines : List ResolvedOrderLine} {draft : OrderDraft},
      ResolvedLines db lines → businessOrderDraft customer lines = .ok draft →
      ResolvedLines db draft.lines := by
    intro customer lines draft hlines hok
    unfold businessOrderDraft at hok
    simp only [bind_eq_ok, pure_eq_ok] at hok
    obtain ⟨-, -, rfl⟩ := hok
    exact hlines
  have hcreate : ∀ {customer : ℕ} {lines : List OrderLineInput} {r : Db × Order},
      Business.createDraftOrder rt db customer lines = .ok r → OneLinePerOffer r.1 := by
    intro customer lines r hok
    unfold Business.createDraftOrder buildBusinessOrderDraft at hok
    simp only [bind_eq_ok] at hok
    obtain ⟨draft, ⟨resolved, hresolved, hbuild⟩, hok⟩ := hok
    exact h.createDraft (hdraft (resolveBusinessOrderLines_resolved hresolved) hbuild) hok
  -- One case for each operation; a refused one writes nothing.
  cases op with
  | createDraftOrder customer lines =>
    refine Db.commit_of (fun db' hok => ?_) h
    obtain ⟨r, hr, rfl⟩ := map_eq_ok.mp hok
    exact hcreate hr
  | addCatalogOffer customer product commercialPriceId quantity =>
    refine Db.commit_of (fun db' hok => ?_) h
    obtain ⟨r, hr, rfl⟩ := map_eq_ok.mp hok
    exact h.addCatalogOffer hr
  | addProduct customer product quantity =>
    refine Db.commit_of (fun db' hok => ?_) h
    obtain ⟨r, hr, rfl⟩ := map_eq_ok.mp hok
    exact h.addProduct hr
  | setDraftLine orderPk orderLineId quantity =>
    exact Db.commit_of (fun db' hok => h.setDraftLine hok) h
  | removeDraftLine orderPk orderLineId =>
    exact Db.commit_of (fun db' hok => h.removeDraftLine hok) h
  | setDraftProduct orderPk productId quantity =>
    refine Db.commit_of (fun db' hok => ?_) h
    unfold Business.setDraftProductQuantity at hok
    obtain ⟨line, -, hok⟩ := bind_eq_ok.mp hok
    exact h.setDraftLine hok
  | removeProduct orderPk productId =>
    refine Db.commit_of (fun db' hok => ?_) h
    unfold Business.removeProductFromDraftOrder at hok
    obtain ⟨line, -, hok⟩ := bind_eq_ok.mp hok
    exact h.removeDraftLine hok
  | replaceDraftLines orderPk lines =>
    exact Db.commit_of (fun db' hok => h.replaceDraftLines hok) h
  | discardDraft orderPk => exact Db.commit_of (fun db' hok => h.discardDraft hok) h
  | repeatOrder customer sourceOrder =>
    show OneLinePerOffer (Business.repeatOrderIntoDraft rt db customer sourceOrder).1
    unfold Business.repeatOrderIntoDraft
    split
    · exact h
    · exact repeatLines _ _ h
  | placeOrder orderPk user => exact Db.commit_of (fun db' hok => h.place hok) h
  | createOrder customer lines user =>
    refine Db.commit_of (fun db' hok => ?_) h
    unfold Business.createOrder at hok
    obtain ⟨r, hr, hplace⟩ := bind_eq_ok.mp hok
    exact (hcreate hr).place hplace
  | updatePlacedOrder orderPk lines user =>
    refine Db.commit_of (fun db' hok => ?_) h
    unfold Business.updatePlacedOrder at hok
    obtain ⟨resolved, hresolved, hok⟩ := bind_eq_ok.mp hok
    exact h.updatePlaced (resolveBusinessOrderLines_resolved hresolved) hok
  | opsCreateOrder customer lines user =>
    show OneLinePerOffer (OpsPortal.createOrder rt db customer lines user).1
    unfold OpsPortal.createOrder
    split
    · exact h
    · rename_i drafted order hcreate
      simp only [bind_eq_ok, buildOpsOrderDraft] at hcreate
      obtain ⟨draft, ⟨resolved, hresolved, hbuild⟩, hcreate⟩ := hcreate
      have hdrafted := h.createDraft
        (hdraft (resolveBusinessOfferLines_resolved hresolved) hbuild) hcreate
      split
      · exact hdrafted
      · rename_i placed hplace
        exact hdrafted.place hplace
  | opsUpdatePlacedOrder orderPk lines user =>
    refine Db.commit_of (fun db' hok => ?_) h
    unfold OpsPortal.updatePlacedOrder at hok
    obtain ⟨resolved, hresolved, hok⟩ := bind_eq_ok.mp hok
    exact h.updatePlaced (resolveBusinessOfferLines_resolved hresolved) hok

/-- Without lines there is nothing to tell apart. -/
theorem empty : OneLinePerOffer Db.empty where
  references l hl := absurd hl (Table.not_mem_empty l)
  product l hl := absurd hl (Table.not_mem_empty l)
  selection l hl := absurd hl (Table.not_mem_empty l)
  unique l hl := absurd hl (Table.not_mem_empty l)

/-- **Every run.** -/
theorem ofRun {ms : List BusinessMove} (h : Run BusinessStep Db.empty ms db) :
    OneLinePerOffer db := by
  refine h.invariant (fun s m t hs hstep => ?_) empty
  cases hstep with
  | call rt op => exact hs.exec rt op
  | elsewhere he => exact hs.elsewhere he

end OneLinePerOffer

/-- **One explicit and one legacy line.** In every database that runs of the business services
    lead to, two lines of an order with the same offer are the same line, unless one is
    explicit and the other legacy; and grouping the lines of an order by offer, as an edit
    does, is refused only when the order has such two lines. -/
theorem one_line_per_offer {db : Db} {ms : List BusinessMove} (h : Run BusinessStep Db.empty ms db)
    (k : ℕ) :
    (∀ l ∈ db.orderLines k, ∀ l' ∈ db.orderLines k, l.commercialOfferId = l'.commercialOfferId →
      l = l' ∨ l.isExplicit ≠ l'.isExplicit) ∧
    ((∀ l ∈ db.orderLines k, ∀ l' ∈ db.orderLines k, l.commercialOfferId = l'.commercialOfferId →
        l.isExplicit = l'.isExplicit) →
      ∃ existing, existingByOfferId (db.orderLines k) = .ok existing) := by
  have hinv := OneLinePerOffer.ofRun h
  -- Of one kind there is one line for each offer.
  have hone : ∀ l ∈ db.orderLines k, ∀ l' ∈ db.orderLines k,
      l.commercialOfferId = l'.commercialOfferId → l.isExplicit = l'.isExplicit → l = l' := by
    intro l hl l' hl' hoffer hexplicit
    obtain ⟨hl, hlk⟩ := Db.mem_orderLines.mp hl
    obtain ⟨hl', hlk'⟩ := Db.mem_orderLines.mp hl'
    exact hinv.unique l hl l' hl' (hlk.trans hlk'.symm) hoffer hexplicit
  refine ⟨fun l hl l' hl' hoffer => ?_, fun hsame => existingByOfferId_returns.mpr ?_⟩
  · by_cases hexplicit : l.isExplicit = l'.isExplicit
    · exact Or.inl (hone l hl l' hl' hoffer hexplicit)
    · exact Or.inr hexplicit
  · refine (List.nodup_map_iff_inj_on (List.Nodup.of_map _ (db.lines.select_nodup_pk _))).mpr ?_
    exact fun l hl l' hl' hoffer => hone l hl l' hl' hoffer (hsame l hl l' hl' hoffer)

namespace Shop

/-- A draft with a legacy line and an explicit line of the standard offer, placed. -/
def mixed : Db :=
  (BusinessOp.placeOrder 1 none).exec (runtime 3)
    ((BusinessOp.addCatalogOffer 7 product 1 1).exec (runtime 2)
      ((BusinessOp.addProduct 7 product 1).exec (runtime 1) (State.init.after opening).db))

/-- The example is reached by a run. -/
theorem mixed_run : ∃ ms, Run BusinessStep Db.empty ms mixed := by
  have hopening : Elsewhere Db.empty (State.init.after opening).db :=
    ⟨rfl, fun o ho => absurd ho (Table.not_mem_empty o),
      fun o _ => Or.inr (fun l hl => absurd hl (Table.not_mem_empty l))⟩
  exact ⟨_, (((Run.single (BusinessStep.elsewhere hopening)).append
    (Run.single (BusinessStep.call (runtime 1) _))).append
    (Run.single (BusinessStep.call (runtime 2) _))).append
    (Run.single (BusinessStep.call (runtime 3) _))⟩

end Shop

/-- The two lines of the mixed order are of different kinds. -/
theorem one_line_per_offer_mixed :
    (Shop.mixed.orderLines 1).length = 2
      ∧ ∀ l ∈ Shop.mixed.orderLines 1, ∀ l' ∈ Shop.mixed.orderLines 1,
        l.commercialOfferId = l'.commercialOfferId → l = l' ∨ l.isExplicit ≠ l'.isExplicit := by
  obtain ⟨ms, hrun⟩ := Shop.mixed_run
  exact ⟨by decide +kernel, (one_line_per_offer hrun 1).1⟩

/-- **Explicit beside legacy.** The order has two lines for one offer; it is placed, and no edit
    of it gets past them, not even one that changes nothing. -/
theorem explicit_beside_legacy :
    (∃ ms, Run BusinessStep Db.empty ms Shop.mixed) ∧
      ∃ o ∈ Shop.mixed.orders, o.pk = 1 ∧ o.channel = .business ∧ o.status = .placed
        ∧ (∃ l ∈ Shop.mixed.orderLines o.pk, ∃ l' ∈ Shop.mixed.orderLines o.pk,
            l ≠ l' ∧ l.commercialOfferId = l'.commercialOfferId)
        ∧ (Business.updatePlacedOrder (Shop.runtime 4) Shop.mixed o.pk
            [⟨2, .stock, some 1, none⟩] none).map (fun _ => ())
          = .error (.invalidOrderOperation "duplicate commercial offer 1 on existing order") := by
  have hplaced : ∃ o ∈ Shop.mixed.orders.rows, o.pk = 1 ∧ o.channel = .business
      ∧ o.status = .placed ∧ (∃ l ∈ Shop.mixed.orderLines o.pk, ∃ l' ∈ Shop.mixed.orderLines o.pk,
        l ≠ l' ∧ l.commercialOfferId = l'.commercialOfferId)
      ∧ (Business.updatePlacedOrder (Shop.runtime 4) Shop.mixed o.pk
            [⟨2, .stock, some 1, none⟩] none).map (fun _ => ())
          = .error (.invalidOrderOperation "duplicate commercial offer 1 on existing order") := by
    decide +kernel
  exact ⟨Shop.mixed_run, hplaced⟩

end SwedeSweets
