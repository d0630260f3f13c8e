import SwedeSweets.Business.DraftEffects
import SwedeSweets.Business.Placement
import SwedeSweets.Guarantees.RetailCatalog

namespace SwedeSweets

open Relational Fallible Transition

/-!
# A draft built from the catalog can be placed

A session is a sequence of catalog additions, quantity changes and removals on one draft, on
one business date, while nobody else changes anything (`DraftSession`).  Every line stays
within the free units of the pool of its offer (`Basket`), so the draft can be placed:
`catalog_draft_places`.
-/

/-! ### Sessions -/

/-- One change of a draft by its customer. -/
inductive DraftOp where
  | add (product : Product) (commercialPriceId : ℕ) (quantity : ℤ)
  | set (orderLineId : ℕ) (quantity : ℤ)
  | remove (orderLineId : ℕ)

def DraftOp.run (rt : Runtime) (db : Db) (customer orderPk : ℕ) : DraftOp → Result Db
  | .add product commercialPriceId quantity =>
      (Business.addCatalogOfferToDraftOrder rt db customer product commercialPriceId quantity).map
        Prod.fst
  | .set orderLineId quantity => Business.setDraftLineQuantity rt db orderPk orderLineId quantity
  | .remove orderLineId => Business.removeDraftLine db orderPk orderLineId

/-- A change that goes through, on the date of the session and not before the last one. -/
structure DraftSession (today : Date) (customer orderPk : ℕ) (s : State) (l : Runtime × DraftOp)
    (t : State) : Prop where
  date : l.1.today = today
  forward : s.clock ≤ l.1.now
  clock : t.clock = l.1.now
  goesThrough : l.2.run l.1 s.db customer orderPk = .ok t.db

/-- The one draft of the customer, and nothing on it. -/
structure EmptyDraft (db : Db) (customer orderPk : ℕ) : Prop where
  order : ∃ o ∈ db.orders, o.pk = orderPk ∧ isBusinessDraftOf customer o = true
  only : ∀ o ∈ db.orders, isBusinessDraftOf customer o = true → o.pk = orderPk
  noLines : db.orderLines orderPk = []
  noAllocations : db.orderAllocations orderPk = []

/-! ### The basket -/

variable {today : Date} {customer k : ℕ} {s t : State}

/-- The line was chosen from the catalog and fits the free units of its offer's pool. -/
structure Chosen (today : Date) (s : State) (l : OrderLine) (o : CommercialPrice) : Prop where
  servable : Servable s.db l o
  selection : l.businessOfferSelection = some (some o.pk)
  fits : ∀ rt : Runtime, rt.today = today → l.quantityInUnits
    ≤ s.db.poolCapacity s.clock (listOrderableBatchesForOffer rt s.db o .eur)

/-- A draft of chosen lines, one for each offer. -/
structure Basket (today : Date) (customer orderPk : ℕ) (s : State) : Prop where
  offers : OfferConstraints s.db
  fit : ReservationsFit s.clock s.db
  order : ∃ o ∈ s.db.orders, o.pk = orderPk ∧ isBusinessDraftOf customer o = true
  only : ∀ o ∈ s.db.orders, isBusinessDraftOf customer o = true → o.pk = orderPk
  noAllocations : s.db.orderAllocations orderPk = []
  chosen : ∀ l ∈ s.db.orderLines orderPk, ∃ o, Chosen today s l o
  distinct : ∀ l ∈ s.db.orderLines orderPk, ∀ l' ∈ s.db.orderLines orderPk,
    l.commercialOfferId = l'.commercialOfferId → l = l'

/-- Only lines changed, and reservations at most went away. -/
structure Widens (s t : State) : Prop where
  products : t.db.products = s.db.products
  prices : t.db.commercialPrices = s.db.commercialPrices
  batches : t.db.batches = s.db.batches
  orders : t.db.orders = s.db.orders
  allocations : ∀ a ∈ t.db.allocations, a ∈ s.db.allocations
  reserved : ∀ b, t.db.activeReserved t.clock b ≤ s.db.activeReserved s.clock b

namespace Widens

/-- Free units do not get less. -/
theorem capacity (h : Widens s t) (batches : BatchQuery) :
    s.db.poolCapacity s.clock batches ≤ t.db.poolCapacity t.clock batches :=
  poolCapacity_mono h.batches h.reserved batches

/-- The pools are the same. -/
theorem pool (h : Widens s t) (rt : Runtime) (o : CommercialPrice) (currency : Currency) :
    listOrderableBatchesForOffer rt t.db o currency
      = listOrderableBatchesForOffer rt s.db o currency :=
  listOrderableBatchesForOffer_congr h.products h.prices rt o currency

/-- A chosen line stays chosen. -/
theorem chosen (h : Widens s t) {l : OrderLine} {o : CommercialPrice} (hl : Chosen today s l o) :
    Chosen today t l o := by
  refine ⟨hl.servable.frame h.products h.prices, hl.selection, fun rt hrt => ?_⟩
  rw [h.pool]
  exact (hl.fits rt hrt).trans (h.capacity _)

/-- Another basket, as far as its lines are chosen and distinct. -/
theorem basket (h : Widens s t) (hs : Basket today customer k s)
    (hchosen : ∀ l ∈ t.db.orderLines k, ∃ o, Chosen today t l o)
    (hdistinct : ∀ l ∈ t.db.orderLines k, ∀ l' ∈ t.db.orderLines k,
      l.commercialOfferId = l'.commercialOfferId → l = l') : Basket today customer k t where
  offers := hs.offers.frame h.prices h.batches
  fit b hb := (h.reserved b.pk).trans (hs.fit b (h.batches ▸ hb))
  order := h.orders ▸ hs.order
  only := h.orders ▸ hs.only
  noAllocations := by
    -- Allocations may be lost, and the draft had none.
    rw [List.eq_nil_iff_forall_not_mem]
    intro a ha
    obtain ⟨ha, hak⟩ := Db.mem_orderAllocations.mp ha
    have hmem : a ∈ s.db.orderAllocations k := Db.mem_orderAllocations.mpr ⟨h.allocations a ha, hak⟩
    rw [hs.noAllocations] at hmem
    cases hmem
  chosen := hchosen
  distinct := hdistinct

/-- Rewriting the line table. -/
theorem lines {rt : Runtime} {lines : Table OrderLine} (hnow : s.clock ≤ rt.now)
    (ht : t = ⟨rt.now, { s.db with lines := lines }⟩) : Widens s t := by
  subst ht
  exact ⟨rfl, rfl, rfl, rfl, fun a ha => ha, fun b => Db.activeReserved_anti hnow s.db b⟩

/-- Deleting lines with what hangs on them. -/
theorem deleteLines {rt : Runtime} {pks : List ℕ} (hnow : s.clock ≤ rt.now)
    (ht : t = ⟨rt.now, s.db.deleteLines pks⟩) : Widens s t := by
  subst ht
  refine ⟨rfl, rfl, rfl, rfl, fun a ha => (Table.mem_delete.mp ha).1, fun b => ?_⟩
  refine le_trans ?_ (Db.activeReserved_anti hnow s.db b)
  refine (Table.total_delete _ _ _).le.trans (Table.total_mono (fun a _ => ?_))
  by_cases hp : pks.contains a.orderLineId = true
  · rw [if_pos hp]
    exact Nat.zero_le _
  · rw [if_neg hp]

end Widens

/-- What the catalog lists under an offer is that offer, with the free units of its pool. -/
theorem entry_of_lookup {rt : Runtime} {db : Db} (hc : OfferConstraints db)
    (hfit : ReservationsFit rt.now db) {productId priceId : ℕ} {row : CatalogProduct}
    {co : CatalogOffer} (hrow : Business.getCatalogProduct rt db productId = .ok row)
    (hco : Business.getCatalogOffer row priceId = .ok co) :
    ∃ o ∈ db.commercialPrices, o.pk = priceId ∧ Entry rt db productId co o := by
  unfold Business.getCatalogProduct at hrow
  simp only [bind_eq_ok, orRaise_eq_ok] at hrow
  obtain ⟨catalog, hcatalog, hrow⟩ := hrow
  unfold Business.getCatalogOffer at hco
  rw [orRaise_eq_ok] at hco
  obtain ⟨o, ho, hentry⟩ := entry_of_listed hc hfit hcatalog (List.mem_of_find?_eq_some hrow)
    (List.mem_of_find?_eq_some hco)
  have hproduct : row.product.pk = productId := by simpa using List.find?_some hrow
  have hprice : co.commercialPriceId = priceId := by simpa using List.find?_some hco
  exact ⟨o, ho, hentry.offer.symm.trans hprice, hproduct ▸ hentry⟩

namespace Basket

/-- An empty draft is a basket. -/
theorem ofEmpty (hc : OfferConstraints s.db) (hfit : ReservationsFit s.clock s.db)
    (h : EmptyDraft s.db customer k) : Basket today customer k s where
  offers := hc
  fit := hfit
  order := h.order
  only := h.only
  noAllocations := h.noAllocations
  chosen l hl := by rw [h.noLines] at hl; cases hl
  distinct l hl := by rw [h.noLines] at hl; cases hl

/-- Reservations still fit at a later time. -/
theorem fit_later (h : Basket today customer k s) {now : Time} (hnow : s.clock ≤ now) :
    ReservationsFit now s.db :=
  fun b hb => (Db.activeReserved_anti hnow s.db b.pk).trans (h.fit b hb)

/-- The draft a catalog addition finds is the draft of the session. -/
theorem openDraft (h : Basket today customer k s) {rt : Runtime} {db₁ : Db} {o : Order}
    (hok : Business.getOrCreateCustomerDraftOrder rt s.db customer = .ok (db₁, o)) :
    db₁ = s.db ∧ o.pk = k := by
  obtain ⟨ho, hdraft, hdb | ⟨hnone, -⟩⟩ := Business.getOrCreateDraft_eq_ok hok
  · have hdb : db₁ = s.db := hdb
    subst hdb
    exact ⟨rfl, h.only o ho hdraft⟩
  · -- the customer has a draft already
    obtain ⟨x, hx, -, hxdraft⟩ := h.order
    have hmem : x ∈ s.db.orders.select (isBusinessDraftOf customer) :=
      Table.mem_select.mpr ⟨hx, hxdraft⟩
    rw [hnone] at hmem
    cases hmem

/-- A new version of one line. -/
theorem putLine (h : Basket today customer k s) {rt : Runtime} (hnow : s.clock ≤ rt.now)
    {l l' : OrderLine} (hl : l ∈ s.db.orderLines k) (hsame : l.SameChoice l')
    (ht : t = ⟨rt.now, { s.db with lines := s.db.lines.put l' }⟩) {o : CommercialPrice}
    (hchosen : Chosen today s l o)
    (hfits : ∀ rt' : Runtime, rt'.today = today → l'.quantityInUnits
      ≤ s.db.poolCapacity rt.now (listOrderableBatchesForOffer rt' s.db o .eur)) :
    Basket today customer k t := by
  have hw : Widens s t := Widens.lines hnow ht
  have hmem : ∀ x ∈ t.db.orderLines k, x = l' ∨ (x ∈ s.db.orderLines k ∧ x.pk ≠ l'.pk) := by
    intro x hx
    obtain ⟨hx, hxk⟩ := Db.mem_orderLines.mp hx
    rw [ht] at hx
    rcases Table.of_mem_put hx with rfl | ⟨hx, hne⟩
    · exact Or.inl rfl
    · exact Or.inr ⟨Db.mem_orderLines.mpr ⟨hx, hxk⟩, hne⟩
  -- no other line is for the offer of this one
  have hother : ∀ x ∈ s.db.orderLines k, x.pk ≠ l'.pk →
      x.commercialOfferId ≠ l'.commercialOfferId := by
    intro x hx hne hoffer
    have hxl := h.distinct x hx l hl (hoffer.trans hsame.offer)
    exact hne ((congrArg OrderLine.pk hxl).trans hsame.pk.symm)
  refine hw.basket h (fun x hx => ?_) (fun x hx y hy hxy => ?_)
  · rcases hmem x hx with rfl | ⟨hx, -⟩
    · have hs : Servable s.db x o := ⟨hchosen.servable.mem, hchosen.servable.offer.trans
        hsame.offer.symm, hchosen.servable.product.trans hsame.product.symm,
        hchosen.servable.channel, hchosen.servable.sellable⟩
      refine ⟨o, hs.frame hw.products hw.prices, hsame.selection.trans hchosen.selection,
        fun rt' hrt' => ?_⟩
      rw [hw.pool, ht]
      exact hfits rt' hrt'
    · obtain ⟨o', ho'⟩ := h.chosen x hx
      exact ⟨o', hw.chosen ho'⟩
  · rcases hmem x hx with rfl | ⟨hx, hxne⟩ <;> rcases hmem y hy with rfl | ⟨hy, hyne⟩
    · rfl
    · exact absurd hxy.symm (hother y hy hyne)
    · exact absurd hxy (hother x hx hxne)
    · exact h.distinct x hx y hy hxy

/-- **Adding.** -/
theorem add (h : Basket today customer k s) {rt : Runtime} (hdate : rt.today = today)
    (hnow : s.clock ≤ rt.now) {product : Product} {priceId : ℕ} {quantity : ℤ} {r : Db × Order}
    (hok : Business.addCatalogOfferToDraftOrder rt s.db customer product priceId quantity = .ok r)
    (ht : t = ⟨rt.now, r.1⟩) : Basket today customer k t := by
  obtain ⟨-, row, co, hrow, hco, db₁, hdraft, hadd⟩ := Business.addCatalogOffer_eq_ok hok
  obtain ⟨hdb, hok⟩ := h.openDraft hdraft
  subst hdb
  obtain ⟨o, ho, hpk, hentry⟩ := entry_of_lookup h.offers (h.fit_later hnow) hrow hco
  -- the units the catalog shows are the free units of the pool
  have hunits : ∀ {q : ℕ}, (q : ℤ) ≤ co.availableUnits → ∀ rt' : Runtime, rt'.today = today →
      q ≤ s.db.poolCapacity rt.now (listOrderableBatchesForOffer rt' s.db o .eur) := by
    intro q hq rt' hrt'
    rw [pool_of_today (hrt'.trans hdate.symm)]
    rw [hentry.units] at hq
    exact_mod_cast hq
  revert hadd ht
  generalize r.1 = db', r.2 = order at *
  intro ht hadd
  cases hadd with
  | @resized l l' found same total available =>
    have hl : l ∈ s.db.orderLines k := hok ▸ found.1
    obtain ⟨o', ho'⟩ := h.chosen l hl
    have hsame : o' = o := by
      have hsel := Option.some.inj (Option.some.inj (ho'.selection.symm.trans found.2.2))
      exact Table.eq_of_pk_eq (t := s.db.commercialPrices) ho'.servable.mem ho (hsel.trans hpk.symm)
    exact h.putLine hnow hl same ht ho' (hsame ▸ hunits available)
  | @inserted offer x absent known chosen ofProduct hxorder line total available =>
    have hw : Widens s t := Widens.lines hnow ht
    have hmem : ∀ y ∈ t.db.orderLines k, y ∈ s.db.orderLines k
        ∨ y = (Business.explicitRow x priceId).make s.db.lines.next := by
      intro y hy
      obtain ⟨hy, hyk⟩ := Db.mem_orderLines.mp hy
      rw [ht] at hy
      rcases Table.mem_insert.mp hy with hy | hy
      · exact Or.inl (Db.mem_orderLines.mpr ⟨hy, hyk⟩)
      · exact Or.inr hy
    -- an old line for the offer would have been found
    have hnew : ∀ y ∈ s.db.orderLines k, y.commercialOfferId ≠ priceId := by
      intro y hy hyoffer
      obtain ⟨o', ho'⟩ := h.chosen y hy
      have heq : o' = o := Table.eq_of_pk_eq (t := s.db.commercialPrices) ho'.servable.mem ho
        (ho'.servable.offer.trans (hyoffer.trans hpk.symm))
      subst heq
      exact absent y ⟨hok.symm ▸ hy, ho'.servable.product.symm.trans hentry.ofProduct,
        hpk ▸ ho'.selection⟩
    refine hw.basket h (fun y hy => ?_) (fun y hy z hz hyz => ?_)
    · rcases hmem y hy with hy | rfl
      · obtain ⟨o', ho'⟩ := h.chosen y hy
        exact ⟨o', hw.chosen ho'⟩
      · have hs : Servable s.db ((Business.explicitRow x priceId).make s.db.lines.next) o :=
          ⟨ho, hpk.trans line.2.symm, hentry.ofProduct.trans line.1.symm, hentry.channel,
            hentry.sellable⟩
        refine ⟨o, hs.frame hw.products hw.prices, congrArg (some ∘ some) hpk.symm,
          fun rt' hrt' => ?_⟩
        rw [hw.pool, ht]
        have hq : (x.quantityInUnits : ℤ) ≤ co.availableUnits := total ▸ available
        exact hunits hq rt' hrt'
    · rcases hmem y hy with hy | rfl <;> rcases hmem z hz with hz | rfl
      · exact h.distinct y hy z hz hyz
      · exact absurd (hyz.trans line.2) (hnew y hy)
      · exact absurd (hyz.symm.trans line.2) (hnew z hz)
      · rfl

/-- **Setting a quantity.** -/
theorem set (h : Basket today customer k s) {rt : Runtime} (hdate : rt.today = today)
    (hnow : s.clock ≤ rt.now) {lineId : ℕ} {quantity : ℤ} {db' : Db}
    (hok : Business.setDraftLineQuantity rt s.db k lineId quantity = .ok db')
    (ht : t = ⟨rt.now, db'⟩) : Basket today customer k t := by
  obtain ⟨l, hl, -, l', hsame, hq, -, havailable, rfl⟩ := Business.setDraftLineQuantity_eq_ok hok
  obtain ⟨o, ho⟩ := h.chosen l hl
  refine h.putLine hnow hl hsame ht ho (fun rt' hrt' => ?_)
  unfold Business.requireAvailable Business.getExplicitOfferForOrderLine at havailable
  simp only [ho.selection, bind_eq_ok, require_eq_ok] at havailable
  -- The availability check is made against the offer's own entry in the catalog.
  obtain ⟨co, ⟨row, hrow, hco⟩, hle⟩ := havailable
  obtain ⟨o', ho', hpk, hentry⟩ := entry_of_lookup h.offers (h.fit_later hnow) hrow hco
  have heq : o' = o := Table.eq_of_pk_eq (t := s.db.commercialPrices) ho' ho.servable.mem hpk
  subst heq
  rw [pool_of_today (hrt'.trans hdate.symm)]
  rw [hentry.units, ← hq] at hle
  exact_mod_cast hle

/-- **Removing.** -/
theorem remove (h : Basket today customer k s) {rt : Runtime} (hnow : s.clock ≤ rt.now) {lineId : ℕ}
    {db' : Db} (hok : Business.removeDraftLine s.db k lineId = .ok db') (ht : t = ⟨rt.now, db'⟩) :
    Basket today customer k t := by
  rw [Business.removeDraftLine_eq_ok hok] at ht
  have hw : Widens s t := Widens.deleteLines hnow ht
  have hmem : ∀ x ∈ t.db.orderLines k, x ∈ s.db.orderLines k := by
    intro x hx
    obtain ⟨hx, hxk⟩ := Db.mem_orderLines.mp hx
    rw [ht] at hx
    exact Db.mem_orderLines.mpr ⟨(Table.mem_delete.mp hx).1, hxk⟩
  refine hw.basket h (fun x hx => ?_) (fun x hx y hy => h.distinct x (hmem x hx) y (hmem y hy))
  obtain ⟨o, ho⟩ := h.chosen x (hmem x hx)
  exact ⟨o, hw.chosen ho⟩

/-- **One change.** -/
theorem step (h : Basket today customer k s) {l : Runtime × DraftOp}
    (hstep : DraftSession today customer k s l t) : Basket today customer k t := by
  obtain ⟨rt, op⟩ := l
  obtain ⟨hdate, hforward, hclock, hok⟩ := hstep
  have ht : t = ⟨rt.now, t.db⟩ := by
    obtain ⟨clock, db⟩ := t
    exact congrArg (State.mk · db) hclock
  cases op with
  | add product priceId quantity =>
    obtain ⟨r, hr, hdb⟩ := map_eq_ok.mp hok
    exact h.add hdate hforward hr (hdb ▸ ht)
  | set lineId quantity => exact h.set hdate hforward hok ht
  | remove lineId => exact h.remove hforward hok ht

/-- A session keeps the basket. -/
theorem run (h : Basket today customer k s) {ls : List (Runtime × DraftOp)}
    (hrun : Run (DraftSession today customer k) s ls t) : Basket today customer k t :=
  hrun.invariant (fun _ _ _ hs hstep => hs.step hstep) h

end Basket

/-! ### Placing -/

/-- The allocation belongs to a line of its order and lies in the pool of that line's offer. -/
def InOwnPool (rt : Runtime) (db : Db) (a : Allocation) : Prop :=
  ∃ l ∈ db.orderLines a.orderId, l.pk = a.orderLineId ∧
    ∃ o ∈ db.commercialPrices, o.pk = l.commercialOfferId ∧
      ∃ b ∈ db.batches, b.pk = a.batchId ∧ listOrderableBatchesForOffer rt db o .eur b = true

/-- **A basket can be placed.** -/
theorem Basket.place (h : Basket today customer k s) (hne : s.db.orderLines k ≠ []) {rt : Runtime}
    (hdate : rt.today = today) (hnow : s.clock ≤ rt.now) (user : Option ℕ) :
    ∃ db', Business.placeOrder rt s.db k user = .ok db'
      ∧ (∃ o ∈ db'.orders, o.pk = k ∧ o.status = .placed)
      ∧ (∀ l ∈ db'.orderLines k, unitsOf (db'.orderAllocations k) .reserved l.pk = l.quantityInUnits)
      ∧ ∀ a ∈ db'.orderAllocations k, a.status = .reserved ∧ InOwnPool rt db' a := by
  obtain ⟨o, ho, hpk, hdraft⟩ := h.order
  simp only [isBusinessDraftOf, Bool.and_eq_true, decide_eq_true_eq] at hdraft
  obtain ⟨⟨hch, -⟩, hst⟩ := hdraft
  obtain ⟨offer, hserv⟩ := exists_offers (fun l hl => (h.chosen l hl).imp (fun _ ho => ho.servable))
  have hoffer : ∀ l ∈ s.db.orderLines k, Chosen today s l (offer l) := by
    intro l hl
    obtain ⟨x, hx⟩ := h.chosen l hl
    exact (hserv l hl).unique hx.servable ▸ hx
  have hnd : ((s.db.orderLines k).map OrderLine.commercialOfferId).Nodup := by
    refine (List.nodup_map_iff_inj_on (List.Nodup.of_map _ (s.db.lines.select_nodup_pk _))).mpr ?_
    exact fun l hl l' hl' => h.distinct l hl l' hl'
  have hcap : ∀ l ∈ s.db.orderLines k, l.quantityInUnits
      ≤ s.db.poolCapacity rt.now (listOrderableBatchesForOffer rt s.db (offer l) .eur) := by
    intro l hl
    have hw : Widens s ⟨rt.now, s.db⟩ := Widens.lines hnow rfl
    exact ((hoffer l hl).fits rt hdate).trans (hw.capacity _)
  obtain ⟨db₁, hloop⟩ := (reserveBusinessLines_returns h.offers hserv hnd).mpr hcap
  obtain ⟨xs, hxs, hown⟩ := reserveBusinessLines_own h.offers hserv hnd hloop
  have hprep : prepareBusinessOrderForPlacement rt s.db o = .ok db₁ := by
    unfold prepareBusinessOrderForPlacement
    simp only [bind_eq_ok, require_eq_ok, exists_const, hpk]
    exact ⟨hch, hne, hloop⟩
  obtain ⟨-, -, ys, hys, hreserved⟩ := Inv.prepareBusiness_eq_ok hprep
  rw [hpk] at hreserved
  have hplace : Business.placeOrder rt s.db k user = .ok (db₁.saveOrder (o.asPlaced rt.now user)) :=
    placeOrder_eq_ok.mpr ⟨o, ho, hpk, hst, db₁, hprep, rfl⟩
  -- the order's allocations are the new rows
  have hallocs : ∀ {zs : List NewAllocation}, db₁ = s.db.withReservations zs →
      (∀ z ∈ zs, z.line ∈ s.db.orderLines k) →
      (db₁.saveOrder (o.asPlaced rt.now user)).orderAllocations k
        = rowsOf s.db.allocations.next zs := by
    intro zs hzs hlines
    show db₁.orderAllocations k = _
    rw [hzs, orderAllocations_withReservations
      (fun z hz => (Db.mem_orderLines.mp (hlines z hz)).2), h.noAllocations, List.nil_append]
  have hlines : (db₁.saveOrder (o.asPlaced rt.now user)).orderLines k = s.db.orderLines k := by
    rw [hxs]; rfl
  refine ⟨_, hplace, ⟨o.asPlaced rt.now user, ?_, hpk, rfl⟩, fun l hl => ?_, fun a ha => ?_⟩
  · have hex : ∃ x ∈ db₁.orders, Row.pk x = Row.pk (o.asPlaced rt.now user) :=
      ⟨o, by rw [hxs]; exact ho, rfl⟩
    exact (Table.mem_put hex).mpr (Or.inl rfl)
  · rw [hallocs hys (fun y hy => (hreserved.ofLines y hy).1), unitsOf_rowsOf]
    rw [hlines] at hl
    exact hreserved.exact l hl
  · rw [hallocs hxs (fun x hx => (hown.own x hx).1)] at ha
    obtain ⟨x, hx, n, rfl⟩ := mem_rowsOf ha
    obtain ⟨hline, -, b, hb, hbx, hq, -⟩ := hown.own x hx
    have horder := (Db.mem_orderLines.mp hline).2
    refine ⟨rfl, x.line, ?_, rfl, offer x.line, ?_, (hserv _ hline).offer, b, ?_, hbx, ?_⟩
    · show x.line ∈ (db₁.saveOrder (o.asPlaced rt.now user)).orderLines x.line.orderId
      rw [horder, hlines]
      exact hline
    · rw [hxs]; exact (hserv _ hline).mem
    · rw [hxs]; exact hb
    · rw [hxs]; exact hq

/-- **A draft built from the catalog can be placed.** -/
theorem catalog_draft_places (hc : OfferConstraints s.db) (hfit : ReservationsFit s.clock s.db)
    (hdraft : EmptyDraft s.db customer k) {ls : List (Runtime × DraftOp)}
    (hrun : Run (DraftSession today customer k) s ls t) (hne : t.db.orderLines k ≠ [])
    {rt : Runtime} (hdate : rt.today = today) (hnow : t.clock ≤ rt.now) (user : Option ℕ) :
    ∃ db', Business.placeOrder rt t.db k user = .ok db'
      ∧ (∃ o ∈ db'.orders, o.pk = k ∧ o.status = .placed)
      ∧ (∀ l ∈ db'.orderLines k, unitsOf (db'.orderAllocations k) .reserved l.pk = l.quantityInUnits)
      ∧ ∀ a ∈ db'.orderAllocations k, a.status = .reserved ∧ InOwnPool rt db' a :=
  ((Basket.ofEmpty hc hfit hdraft).run hrun).place hne hdate hnow user

namespace Shop

/-- The draft of customer 7, before anything is on it. -/
def draftOpened : State := State.init.after (clearanceOps ++ [(runtime 3, .openDraft 7)])

/-- Two units of the standard offer, three of the clearance batch, and the two changed to four. -/
def basketSession : List (Runtime × DraftOp) :=
  [(runtime 4, .add product 1 2), (runtime 5, .add product 2 3), (runtime 6, .set 1 4)]

def afterDraftOp (s : State) (l : Runtime × DraftOp) : State :=
  ⟨l.1.now, s.db.commit (l.2.run l.1 s.db 7 1)⟩

def basketFilled : State := basketSession.foldl afterDraftOp draftOpened

/-- An operation that succeeds is a step of the session. -/
theorem afterDraftOp_session {s : State} {l : Runtime × DraftOp} (hdate : l.1.today = 0)
    (hnow : s.clock ≤ l.1.now) (hok : (l.2.run l.1 s.db 7 1).toBool = true) :
    DraftSession 0 7 1 s l (afterDraftOp s l) := by
  refine ⟨hdate, hnow, rfl, ?_⟩
  unfold afterDraftOp
  cases hr : l.2.run l.1 s.db 7 1 with
  | ok db => rfl
  | error e => rw [hr] at hok; cases hok

/-- The example's offers fit together. -/
theorem draftOpened_offers : OfferConstraints draftOpened.db where
  uniqueProductPrice := by decide +kernel
  uniqueBatchPrice := by decide +kernel
  batchProduct := by decide +kernel

end Shop

/-- The draft has a line for each of the product's two offers, and both are placed. -/
theorem catalog_draft_places_shop :
    ∃ db', Business.placeOrder (Shop.runtime 7) Shop.basketFilled.db 1 none = .ok db'
      ∧ (∃ o ∈ db'.orders, o.pk = 1 ∧ o.status = .placed)
      ∧ (∀ l ∈ db'.orderLines 1, unitsOf (db'.orderAllocations 1) .reserved l.pk = l.quantityInUnits)
      ∧ ∀ a ∈ db'.orderAllocations 1, a.status = .reserved ∧ InOwnPool (Shop.runtime 7) db' a := by
  have hfit : ReservationsFit Shop.draftOpened.clock Shop.draftOpened.db := by decide +kernel
  have hempty : EmptyDraft Shop.draftOpened.db 7 1 :=
    ⟨by decide +kernel, by decide +kernel, by decide +kernel, by decide +kernel⟩
  have hrun : Run (DraftSession 0 7 1) Shop.draftOpened Shop.basketSession Shop.basketFilled :=
    ((Run.single (Shop.afterDraftOp_session rfl (by decide +kernel) (by decide +kernel))).append
      (Run.single (Shop.afterDraftOp_session rfl (by decide +kernel) (by decide +kernel)))).append
      (Run.single (Shop.afterDraftOp_session rfl (by decide +kernel) (by decide +kernel)))
  exact catalog_draft_places Shop.draftOpened_offers hfit hempty hrun (by decide +kernel) rfl
    (by decide +kernel) none

end SwedeSweets
