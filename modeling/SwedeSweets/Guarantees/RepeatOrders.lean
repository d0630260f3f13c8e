import SwedeSweets.Business.RepeatOrders
import SwedeSweets.Guarantees.DraftPools

namespace SwedeSweets

open Relational Fallible Transition Business

/-!
# A repeated order and its offers

Repeating an order accounts for every source line, adds each line that it adds to one offer, and
leaves the draft alone otherwise.  The offer is the one the line was for, unless the line is a
legacy line for a batch offer (as the ops portal creates them): such a line goes to the standard
offer of its product.  `repeat_order_keeps_offers`: that is the only way an offer is not kept.
-/

variable {rt : Runtime} {db db' : Db} {customer k : ℕ} {catalog : List CatalogProduct}

/-- The line is for a standard offer of the channel. -/
def ForStandard (db : Db) (line : OrderLine) : Prop :=
  ∃ o ∈ db.commercialPrices, o.pk = line.commercialOfferId ∧ o.channel = .business ∧ o.batchId = none

/-! ### The offer of one line -/

/-- A line is repeated with its own offer iff it is explicit or for a standard offer. -/
theorem Filling.own_offer_iff (h : Filling rt customer k catalog db) {line : OrderLine}
    (hline : line ∈ db.lines) {co : CatalogOffer} (hco : repeatableOffer catalog line = .ok co) :
    (co.commercialPriceId = line.commercialOfferId ∧ (co.kind = .standard → ForStandard db line))
      ↔ line.isExplicit = true ∨ ForStandard db line := by
  obtain ⟨product, -, hproduct, -, -, -, -, -, -, offer, hoffer, hpk, hofferProduct, hch, hkind⟩ :=
    h.lookup hco
  obtain ⟨row, -, -, -, -, hresolve, -⟩ := repeatableOffer_eq_ok hco
  unfold resolveRepeatOffer at hresolve
  cases hselection : line.businessOfferSelection with
  | some s =>
    have hs : s = some line.commercialOfferId := h.lines.selection line hline s hselection
    have hid : co.commercialPriceId = line.commercialOfferId := by
      simp only [hselection, hs] at hresolve
      simpa using List.find?_some hresolve
    have hexplicit : line.isExplicit = true := congrArg Option.isSome hselection
    refine iff_of_true ⟨hid, fun hstd => ?_⟩ (Or.inl hexplicit)
    exact ⟨offer, hoffer, hpk.trans hid, hch, hkind.mp hstd⟩
  | none =>
    have hstd : co.kind = .standard := by
      simp only [hselection] at hresolve
      simpa using List.find?_some hresolve
    have hlegacy : ¬ line.isExplicit = true := by
      unfold OrderLine.isExplicit
      rw [hselection]
      exact Bool.false_ne_true
    rw [or_iff_right hlegacy]
    refine ⟨fun hown => hown.2 hstd, fun hfor => ⟨?_, fun _ => hfor⟩⟩
    -- a product has one standard offer
    obtain ⟨o, ho, hopk, hoch, hobatch⟩ := hfor
    have hsame : o = offer := h.offers.uniqueProductPrice o ho offer hoffer hobatch (hkind.mp hstd)
      ((h.lines.product line hline o ho hopk).trans (hofferProduct.trans hproduct).symm)
      (hoch.trans hch.symm)
    rw [← hopk, hsame, hpk]

/-! ### Decisions and reports -/

/-- There is one decision for each line. -/
theorem repeatDecisions_fst (offerUnits productUnits : ℕ → ℤ) (lines : List OrderLine) :
    (repeatDecisions catalog offerUnits productUnits lines).map Prod.fst = lines := by
  induction lines generalizing offerUnits productUnits with
  | nil => rfl
  | cons line lines ih => exact congrArg (line :: ·) (ih _ _)

/-- A line is added to the offer it can be repeated with. -/
theorem repeatable_of_decision {offerUnits productUnits : ℕ → ℤ} {lines : List OrderLine}
    {d : RepeatDecision} (hd : d ∈ repeatDecisions catalog offerUnits productUnits lines)
    {co : CatalogOffer} (hco : d.2 = .ok co) : d.1 ∈ lines ∧ repeatableOffer catalog d.1 = .ok co := by
  induction lines generalizing offerUnits productUnits with
  | nil => cases hd
  | cons line lines ih =>
    rcases List.mem_cons.mp hd with rfl | hd
    · unfold repeatDecision at hco
      simp only [bind_eq_ok, require_eq_ok, exists_const, pure_eq_ok] at hco
      obtain ⟨offer, hoffer, -, rfl⟩ := hco
      exact ⟨List.mem_cons_self .., hoffer⟩
    · obtain ⟨hmem, hoffer⟩ := ih hd
      exact ⟨List.mem_cons_of_mem _ hmem, hoffer⟩

/-- Every decision is counted as added or listed as skipped. -/
theorem record_total (decisions : List RepeatDecision) (result : RepeatOrderResult) :
    (decisions.foldl (RepeatOrderResult.record k) result).addedCount
        + (decisions.foldl (RepeatOrderResult.record k) result).skipped.length
      = result.addedCount + result.skipped.length + decisions.length := by
  induction decisions generalizing result with
  | nil => rfl
  | cons d decisions ih =>
    rw [List.foldl_cons, ih, List.length_cons]
    obtain ⟨line, reason | offer⟩ := d
    · simp only [RepeatOrderResult.record, RepeatOrderResult.skip, List.length_append,
        List.length_singleton]
      omega
    · simp only [RepeatOrderResult.record]
      omega

/-! ### Units on the draft -/

/-- **The units of every offer.** The draft gains for each offer what was added to it, and no
    other order changes. -/
theorem Filling.offerUnits_of_chain (h : Filling rt customer k catalog db)
    {decisions : List RepeatDecision} (hchain : Chain (RepeatStep rt customer) decisions db db')
    (k' offerId : ℕ) :
    db'.offerUnits k' offerId = db.offerUnits k' offerId
      + if k = k' then (decisions.map (RepeatDecision.unitsFor offerId)).sum else 0 := by
  -- By induction on the decisions; each adds its units to its offer.
  induction hchain with
  | nil => simp
  | cons hstep _ ih =>
    cases hstep with
    | skipped line reason =>
      rw [ih h, List.map_cons, List.sum_cons]
      simp only [RepeatDecision.unitsFor, zero_add]
    | @added line offer _ product r ofLine adds =>
      obtain ⟨old, new, hw⟩ := wrote_addCatalogOffer adds
      rw [ih (h.next adds), hw.offerUnits (h.lines.addCatalogOffer adds), h.draft_eq adds,
        List.map_cons, List.sum_cons]
      simp only [RepeatDecision.unitsFor]
      by_cases hk : k = k' <;> by_cases ho : offer.commercialPriceId = offerId <;>
        simp [hk, ho, add_assoc]

/-! ### Repeating an order -/

/-- The offer the line is added to is its own, and today's standard offer only for a line of a
    standard offer. -/
def RepeatDecision.KeepsOffer (db : Db) (d : RepeatDecision) : Prop :=
  ∀ co, d.2 = .ok co → co.commercialPriceId = d.1.commercialOfferId
    ∧ (co.kind = .standard → ForStandard db d.1)

/-- The line, if it is added, was chosen from the catalog or is for a standard offer. -/
def RepeatDecision.Recorded (db : Db) (d : RepeatDecision) : Prop :=
  ∀ co, d.2 = .ok co → d.1.isExplicit = true ∨ ForStandard db d.1

/-- An order of the customer that may be repeated. -/
structure Repeatable (db : Db) (customer : ℕ) (source : Order) : Prop where
  mem : source ∈ db.orders
  channel : source.channel = .business
  owner : source.customerId = some customer
  status : source.status ≠ .draft

/-- **Repeating an order.** Every source line is added or skipped as the decisions say, a skipped
    line changes nothing, and the draft gains for each offer what was added to it.  Each line goes
    to its own offer iff no line is added that is neither explicit nor for a standard offer. -/
theorem repeat_order_keeps_offers {ms : List BusinessMove}
    (hreach : Run BusinessStep Db.empty ms db) (hc : OfferConstraints db)
    (hfit : ReservationsFit rt.now db) (hcatalog : listBusinessCatalogProducts rt db = .ok catalog)
    {source : Order} (hsource : Repeatable db customer source) :
    ∃ k decisions db' result,
      (∃ r, getOrCreateCustomerDraftOrder rt db customer = .ok r ∧ r.2.pk = k) ∧
      decisions = repeatDecisions catalog (db.explicitUnits k) (db.productUnits k)
        (db.orderLines source.pk) ∧
      repeatOrderIntoDraft rt db customer source = (db', .ok result) ∧
      Chain (RepeatStep rt customer) decisions db db' ∧
      result = decisions.foldl (RepeatOrderResult.record k) ⟨none, 0, []⟩ ∧
      result.addedCount + result.skipped.length = (db.orderLines source.pk).length ∧
      (∀ k' offerId, db'.offerUnits k' offerId = db.offerUnits k' offerId
        + if k = k' then (decisions.map (RepeatDecision.unitsFor offerId)).sum else 0) ∧
      ((∀ d ∈ decisions, d.KeepsOffer db) ↔ ∀ d ∈ decisions, d.Recorded db) := by
  obtain ⟨r, hdraft⟩ := getOrCreateDraft_returns rt db customer
  have h : Filling rt customer r.2.pk catalog db :=
    ⟨OneLinePerOffer.ofRun hreach, hc, hfit, hcatalog, r, hdraft, rfl⟩
  obtain ⟨db', hloop, hchain, -⟩ := h.repeatLines_eq (db.orderLines source.pk) ⟨none, 0, []⟩ rfl
  refine ⟨r.2.pk, _, db', _, ⟨r, hdraft, rfl⟩, rfl, ?_, hchain, rfl, ?_,
    fun k' offerId => h.offerUnits_of_chain hchain k' offerId, ?_⟩
  -- The order is repeatable and the catalog is there, so the loop is reached.
  · have hread : (do
        requireRepeatableOrder customer source
        listBusinessCatalogProducts rt db : Result (List CatalogProduct)) = .ok catalog := by
      unfold requireRepeatableOrder
      simp only [bind_eq_ok, require_eq_ok, exists_const]
      exact ⟨⟨hsource.channel, hsource.owner, hsource.status⟩, hcatalog⟩
    unfold repeatOrderIntoDraft
    rw [hread]
    exact hloop
  · rw [record_total, ← List.length_map Prod.fst, repeatDecisions_fst]
    exact Nat.zero_add _
  · refine forall₂_congr (fun d hd => forall₂_congr (fun co hco => ?_))
    obtain ⟨hline, hoffer⟩ := repeatable_of_decision hd hco
    exact h.own_offer_iff (Db.mem_orderLines.mp hline).1 hoffer

namespace Shop

/-- Two units of the clearance batch, ordered by staff. -/
def staffOrdered : Db :=
  (OpsPortal.createOrder (runtime 3) clearance 7 [⟨2, 2, .stock⟩] none).1

def staffOrder : Order :=
  ⟨1, .business, .eur, some 7, .placed, 3, none, none, some 3, none, none, none, none, none, none,
    none, "", ""⟩

/-- What is listed after that. -/
def staffCatalog : List CatalogProduct :=
  (listBusinessCatalogProducts (runtime 4) staffOrdered).toOption.getD []

/-- The example is reached by a run. -/
theorem staffOrdered_run : ∃ ms, Run BusinessStep Db.empty ms staffOrdered := by
  obtain ⟨ms, hrun⟩ := clearance_run
  exact ⟨_, hrun.append (Run.single (BusinessStep.call (runtime 3)
    (.opsCreateOrder 7 [⟨2, 2, .stock⟩] none)))⟩

/-- The example's order can be repeated. -/
theorem staffOrder_repeatable : Repeatable staffOrdered 7 staffOrder where
  mem := by
    show staffOrder ∈ staffOrdered.orders.rows
    decide +kernel
  channel := rfl
  owner := rfl
  status := by decide

end Shop

/-- **Another offer.** The order has one line, for the clearance offer; that offer still has its
    three units, and the two units of the line go to the standard offer instead. -/
theorem repeat_loses_offer :
    (∃ ms, Run BusinessStep Db.empty ms Shop.staffOrdered) ∧
      Repeatable Shop.staffOrdered 7 Shop.staffOrder ∧
      (Shop.staffOrdered.orderLines 1).map OrderLine.commercialOfferId = [2] ∧
      (∃ o ∈ Shop.staffOrdered.commercialPrices, o.pk = 2 ∧ Shop.staffOrdered.poolCapacity 4
        (listOrderableBatchesForOffer (Shop.runtime 4) Shop.staffOrdered o .eur) = 3) ∧
      (repeatOrderIntoDraft (Shop.runtime 4) Shop.staffOrdered 7 Shop.staffOrder).2.map
        (fun result => (result.draftOrder, result.addedCount, result.skipped))
          = .ok (some 2, 1, []) ∧
      ((repeatOrderIntoDraft (Shop.runtime 4) Shop.staffOrdered 7 Shop.staffOrder).1.orderLines 2).map
        (fun l => (l.commercialOfferId, l.quantityInUnits)) = [(1, 2)] := by
  -- The batch offer still has enough units.
  have hoffer : ∃ o ∈ Shop.staffOrdered.commercialPrices.rows, o.pk = 2
      ∧ Shop.staffOrdered.poolCapacity 4
        (listOrderableBatchesForOffer (Shop.runtime 4) Shop.staffOrdered o .eur) = 3 := by
    decide +kernel
  exact ⟨Shop.staffOrdered_run, Shop.staffOrder_repeatable, by decide +kernel, hoffer,
    by decide +kernel, by decide +kernel⟩

/-- The order of the staff is repeated; its line is not one that keeps its offer. -/
theorem repeat_order_keeps_offers_shop :
    ∃ k decisions db' result,
      decisions = repeatDecisions Shop.staffCatalog (Shop.staffOrdered.explicitUnits k)
        (Shop.staffOrdered.productUnits k) (Shop.staffOrdered.orderLines Shop.staffOrder.pk) ∧
      repeatOrderIntoDraft (Shop.runtime 4) Shop.staffOrdered 7 Shop.staffOrder
        = (db', .ok result) ∧
      result.addedCount + result.skipped.length = 1 ∧
      ((∀ d ∈ decisions, d.KeepsOffer Shop.staffOrdered)
        ↔ ∀ d ∈ decisions, d.Recorded Shop.staffOrdered) := by
  have hc : OfferConstraints Shop.staffOrdered := by decide +kernel
  have hfit : ReservationsFit (Shop.runtime 4).now Shop.staffOrdered := by decide +kernel
  have hcatalog : listBusinessCatalogProducts (Shop.runtime 4) Shop.staffOrdered
      = .ok Shop.staffCatalog := by decide +kernel
  have hlines : (Shop.staffOrdered.orderLines Shop.staffOrder.pk).length = 1 := by decide +kernel
  obtain ⟨ms, hreach⟩ := Shop.staffOrdered_run
  -- The order has one line.
  obtain ⟨k, decisions, db', result, -, hdecisions, hrepeat, -, -, htotal, -, hkeeps⟩ :=
    repeat_order_keeps_offers hreach hc hfit hcatalog Shop.staffOrder_repeatable
  exact ⟨k, decisions, db', result, hdecisions, hrepeat, htotal.trans hlines, hkeeps⟩

end SwedeSweets
