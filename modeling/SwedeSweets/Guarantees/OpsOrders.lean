import SwedeSweets.Guarantees.DraftPlacement
import SwedeSweets.Guarantees.OfferChoices
import SwedeSweets.Guarantees.Resolution

namespace SwedeSweets

open Relational Fallible

/-!
# Orders created by staff

The ops portal creates an order in two transactions: the first one saves a draft with its lines,
the second one places it.

* `Draftable` — the input the first transaction goes through with (`opsDraft_returns`);
* `StockSuffices` — the stock the second one needs (`placeDrafted_returns`);
* `ops_order_all_or_nothing` — a failure leaves nothing behind iff it is not the second one that
  fails;
* `ops_order_independent` — lines that can be drafted and placed are placed, iff the customer has
  no draft of its own.
-/

variable {rt : Runtime} {db : Db} {customer : ℕ} {inputs : List BusinessOfferLineInput}
  {user : Option ℕ}

/-! ### The first transaction -/

/-- The customer has no open draft. -/
def NoOpenDraft (db : Db) (customer : ℕ) : Prop :=
  ∀ o ∈ db.orders, isBusinessDraftOf customer o = false

/-- The query for an open draft finds none. -/
theorem noOpenDraft_iff : db.orders.select (isBusinessDraftOf customer) = [] ↔
    NoOpenDraft db customer := by
  unfold NoOpenDraft Table.select
  rw [List.filter_eq_nil_iff]
  exact forall₂_congr (fun o _ => Iff.of_eq (Bool.not_eq_true _))

/-- The column of an order line holds what is ordered of each offer. -/
def UnitsFit (db : Db) (inputs : List BusinessOfferLineInput) : Prop :=
  ∀ line ∈ inputs, ∀ o p, Resolvable db line o p →
    unitsOrdered inputs p o.pk < 10 ^ quantityDigits

/-- Input that becomes a draft. -/
structure Draftable (db : Db) (customer : ℕ) (inputs : List BusinessOfferLineInput) : Prop where
  nonempty : inputs ≠ []
  resolves : ∀ line ∈ inputs, ∃ o p, Resolvable db line o p
  units : UnitsFit db inputs
  noDraft : NoOpenDraft db customer

/-- The order that is opened for the customer. -/
def opsOrder (rt : Runtime) (db : Db) (customer : ℕ) : Order :=
  (newOrder rt .business .eur (some customer)).make db.orders.next

/-- The database with the draft, before it is placed. -/
def Db.withOpsDraft (db : Db) (rt : Runtime) (customer : ℕ) (xs : List NewOrderLine) : Db :=
  { db with
    orders := db.orders.insert (newOrder rt .business .eur (some customer))
    lines := db.lines.insertAll (xs.map NewOrderLine.row) }

/-- What the first transaction saves. -/
structure OpsDraft (rt : Runtime) (db : Db) (customer : ℕ) (inputs : List BusinessOfferLineInput)
    (xs : List NewOrderLine) (resolved : List ResolvedOrderLine) : Prop where
  resolve : resolveBusinessOfferLines db inputs = .ok resolved
  nonempty : resolved ≠ []
  noDraft : NoOpenDraft db customer
  rows : List.Forall₂ (fun line x => newOrderLine (opsOrder rt db customer) line = .ok x) resolved xs

/-- A draft that was built is in the database with its lines. -/
theorem opsDraft_eq_ok {r : Db × Order}
    (h : (do
      let draft ← buildOpsOrderDraft db customer inputs
      createDraftOrder rt db draft : Result (Db × Order)) = .ok r) :
    ∃ xs resolved, OpsDraft rt db customer inputs xs resolved
      ∧ r = (db.withOpsDraft rt customer xs, opsOrder rt db customer) := by
  unfold buildOpsOrderDraft businessOrderDraft createDraftOrder at h
  simp only [bind_eq_ok, require_eq_ok, exists_const, pure_eq_ok] at h
  obtain ⟨-, ⟨resolved, hresolve, hne, rfl⟩, -, ⟨db₁, o⟩, hinsert, db₂, hlines, rfl⟩ := h
  have hnone : db.orders.select (isBusinessDraftOf customer) = [] := by
    unfold insertOrder at hinsert
    simp only [if_true, bind_eq_ok, orRaise_eq_ok, Option.some.injEq, exists_eq_left',
      require_eq_ok, exists_const] at hinsert
    exact hinsert.1
  obtain ⟨rfl, rfl⟩ := Prod.mk.inj (Inv.insertOrder_eq_ok hinsert)
  obtain ⟨xs, hxs, rfl⟩ := createOrderLines_made hlines
  exact ⟨xs, resolved, ⟨hresolve, hne, noOpenDraft_iff.mp hnone, hxs⟩, rfl⟩

/-- A bound on what is ordered of each offer is one on the resolved lines. -/
theorem bound_resolved_iff {resolved : List ResolvedOrderLine}
    (h : resolveBusinessOfferLines db inputs = .ok resolved) {P : CommercialPrice → ℤ → Prop} :
    (∀ line ∈ inputs, ∀ o p, Resolvable db line o p → P o (unitsOrdered inputs p o.pk)) ↔
      ∀ r ∈ resolved, P r.commercialOffer r.quantityInUnits := by
  obtain ⟨hresolves, hmerged⟩ := merged_of_resolve h
  constructor
  · -- a resolved line stands for the input lines of its offer
    intro hinputs r hr
    obtain ⟨line, hline, hpk⟩ := List.mem_map.mp ((hmerged.offers _).mp (List.mem_map_of_mem hr))
    obtain ⟨o, p, hop⟩ := hresolves line hline
    obtain ⟨ho, hp⟩ := hop.unique (hmerged.selectable r hr) hpk.symm
    rw [hmerged.quantity r hr, ho, hp]
    exact hinputs line hline o p hop
  · -- and every input line has a resolved one
    intro hresolved line hline o p hop
    obtain ⟨r, hr, hpk⟩ := List.mem_map.mp ((hmerged.offers _).mpr (List.mem_map_of_mem hline))
    obtain ⟨ho, hp⟩ := hop.unique (hmerged.selectable r hr) hpk
    have hbound := hresolved r hr
    rwa [hmerged.quantity r hr, ho, hp] at hbound

/-- **When the draft is saved.** -/
theorem opsDraft_returns (rt : Runtime) (hweights : ∀ p ∈ db.products, 0 < p.weightPerUnit) :
    (∃ r, (do
      let draft ← buildOpsOrderDraft db customer inputs
      createDraftOrder rt db draft : Result (Db × Order)) = .ok r) ↔
      Draftable db customer inputs := by
  constructor
  · rintro ⟨r, hr⟩
    obtain ⟨xs, resolved, hdraft, -⟩ := opsDraft_eq_ok hr
    obtain ⟨hresolves, hmerged⟩ := merged_of_resolve hdraft.resolve
    have hunits : UnitsFit db inputs := by
      refine (bound_resolved_iff hdraft.resolve (P := fun _ n => n < 10 ^ quantityDigits)).mpr
        (fun r hr => ?_)
      obtain ⟨x, -, hx⟩ := forall₂_left hdraft.rows r hr
      exact (newOrderLine_eq_ok hx).2.quantity.2
    refine ⟨fun hnil => hdraft.nonempty ?_, hresolves, hunits, hdraft.noDraft⟩
    -- no input, no line
    rw [List.eq_nil_iff_forall_not_mem]
    intro line hline
    have hkey := (hmerged.offers _).mp (List.mem_map_of_mem hline)
    rw [hnil] at hkey
    cases hkey
  · intro h
    obtain ⟨resolved, hresolve⟩ := resolve_of_resolvable hweights h.resolves
    have hmerged := (merged_of_resolve hresolve).2
    have hne : resolved ≠ [] := by
      obtain ⟨line, hline⟩ := List.exists_mem_of_ne_nil _ h.nonempty
      obtain ⟨r, hr, -⟩ := List.mem_map.mp ((hmerged.offers _).mpr (List.mem_map_of_mem hline))
      exact List.ne_nil_of_mem hr
    have hlines := offerLine_of_resolved hresolve
    have hcolumn := (bound_resolved_iff hresolve (P := fun _ n => n < 10 ^ quantityDigits)).mp h.units
    obtain ⟨db', hcreate⟩ := createOrderLines_returns (o := opsOrder rt db customer)
      { db with orders := db.orders.insert (newOrder rt .business .eur (some customer)) }
      (fun line hline => ⟨(hlines line hline).product, (hlines line hline).channel⟩)
      (fun line hline => (hlines line hline).storable (hcolumn line hline))
    have hinsert : insertOrder rt db .business .eur (some customer)
        = .ok ({ db with orders := db.orders.insert (newOrder rt .business .eur (some customer)) },
          opsOrder rt db customer) := by
      unfold insertOrder
      simp only [if_true, bind_eq_ok, orRaise_eq_ok, Option.some.injEq, exists_eq_left',
        require_eq_ok, exists_const, pure_eq_ok]
      exact ⟨noOpenDraft_iff.mpr h.noDraft, rfl⟩
    refine ⟨(db', opsOrder rt db customer), ?_⟩
    unfold buildOpsOrderDraft businessOrderDraft createDraftOrder
    simp only [bind_eq_ok, require_eq_ok, exists_const, pure_eq_ok]
    exact ⟨_, ⟨resolved, hresolve, hne, rfl⟩, hne, _, hinsert, db', hcreate, rfl⟩

/-! ### The second transaction -/

/-- What is ordered of each offer fits the free units of its pool. -/
def StockSuffices (rt : Runtime) (db : Db) (inputs : List BusinessOfferLineInput) : Prop :=
  ∀ line ∈ inputs, ∀ o p, Resolvable db line o p → unitsOrdered inputs p o.pk
    ≤ db.poolCapacity rt.now (listOrderableBatchesForOffer rt db o .eur)

namespace OpsDraft

variable {xs : List NewOrderLine} {resolved : List ResolvedOrderLine}

/-- The lines of the draft are merged by offer. -/
theorem merged (h : OpsDraft rt db customer inputs xs resolved) : Merged db inputs resolved :=
  (merged_of_resolve h.resolve).2

/-- Stock suffices when every merged line fits its pool. -/
theorem stockSuffices_iff (h : OpsDraft rt db customer inputs xs resolved) :
    StockSuffices rt db inputs ↔ ∀ r ∈ resolved, r.quantityInUnits
      ≤ db.poolCapacity rt.now (listOrderableBatchesForOffer rt db r.commercialOffer .eur) :=
  bound_resolved_iff h.resolve (P := fun o n =>
    n ≤ db.poolCapacity rt.now (listOrderableBatchesForOffer rt db o .eur))

/-- The draft has the new rows, and no others. -/
theorem orderLines (h : OpsDraft rt db customer inputs xs resolved) (hrefs : References db) :
    (db.withOpsDraft rt customer xs).orderLines db.orders.next
      = Table.made db.lines.next (xs.map NewOrderLine.row) := by
  have hnew : ∀ l ∈ Table.made db.lines.next (xs.map NewOrderLine.row),
      decide (l.orderId = db.orders.next) = true := by
    intro l hl
    obtain ⟨x, hx, n, rfl⟩ := Table.mem_made_map hl
    obtain ⟨line, -, hline⟩ := forall₂_right h.rows x hx
    exact decide_eq_true (newOrderLine_of hline).order
  unfold Db.orderLines Db.withOpsDraft
  rw [Table.select_insertAll_of hnew]
  exact congrArg (· ++ _) (hrefs.fresh Inv.fresh_next).1

/-- The line of the draft is the resolved one. -/
structure Line (r : ResolvedOrderLine) (l : OrderLine) : Prop where
  offer : l.commercialOfferId = r.commercialOffer.pk
  product : l.productId = r.product.pk
  quantity : (l.quantityInUnits : ℤ) = r.quantityInUnits
  price : l.unitPriceSnapshot = r.unitPriceSnapshot

/-- The order's lines are those resolved. -/
theorem lines (h : OpsDraft rt db customer inputs xs resolved) (hrefs : References db) :
    List.Forall₂ Line resolved ((db.withOpsDraft rt customer xs).orderLines db.orders.next) := by
  rw [h.orderLines hrefs]
  have hpos : ∀ r ∈ resolved, 0 < r.quantityInUnits :=
    fun r hr => (offerLine_of_resolved h.resolve r hr).quantity
  have hrows := (List.forall₂_and_left _ _).mpr ⟨hpos, h.rows⟩
  refine Table.forall₂_made (R := fun r d => ∃ x : NewOrderLine, d = x.row ∧ 0 < r.quantityInUnits
    ∧ newOrderLine (opsOrder rt db customer) r = .ok x) ?_ ?_ _
  · rintro r d n ⟨x, rfl, hq, hx⟩
    have hof := newOrderLine_of hx
    refine ⟨hof.offer, hof.product, ?_, hof.price⟩
    show ((x.quantityInUnits : ℕ) : ℤ) = _
    rw [hof.quantity]
    omega
  · exact List.forall₂_map_right_iff.mpr (hrows.imp (fun r x hx => ⟨x, rfl, hx⟩))

/-- Each line of the draft may be reserved from the pool of its offer. -/
theorem servable (h : OpsDraft rt db customer inputs xs resolved) {r : ResolvedOrderLine}
    (hr : r ∈ resolved) {l : OrderLine} (hl : Line r l) :
    Servable (db.withOpsDraft rt customer xs) l r.commercialOffer := by
  have hline := offerLine_of_resolved h.resolve r hr
  have hserv : Servable db l r.commercialOffer :=
    ⟨hline.known, hl.offer.symm, hline.product.trans hl.product.symm, hline.channel, hline.sellable⟩
  exact hserv.frame rfl rfl

/-- The draft is for distinct offers. -/
theorem offers_nodup (h : OpsDraft rt db customer inputs xs resolved) (hrefs : References db) :
    (((db.withOpsDraft rt customer xs).orderLines db.orders.next).map
      OrderLine.commercialOfferId).Nodup := by
  have hmap := map_eq_of_forall₂ (h.lines hrefs) (fun r l hl => hl.offer)
  rw [hmap]
  exact h.merged.distinct

/-- The draft has lines. -/
theorem lines_ne_nil (h : OpsDraft rt db customer inputs xs resolved) (hrefs : References db) :
    (db.withOpsDraft rt customer xs).orderLines db.orders.next ≠ [] := by
  intro hnil
  have hlines := h.lines hrefs
  rw [hnil] at hlines
  exact h.nonempty (List.forall₂_nil_right_iff.mp hlines)

end OpsDraft

/-- An order of the customer is placed with the resolved lines, and those there were are left
    alone. -/
structure PlacedForCustomer (db : Db) (customer : ℕ) (inputs : List BusinessOfferLineInput)
    (db' : Db) : Prop where
  placed : ∃ o ∈ db'.orders, (∀ d ∈ db.orders, d.pk ≠ o.pk) ∧ o.status = .placed
    ∧ o.channel = .business ∧ o.customerId = some customer
    ∧ ∃ resolved, Merged db inputs resolved
      ∧ List.Forall₂ OpsDraft.Line resolved (db'.orderLines o.pk)
  others : ∀ d ∈ db.orders, d ∈ db'.orders ∧ db'.orderLines d.pk = db.orderLines d.pk
  drafts : ∀ d ∈ db'.orders, isBusinessDraftOf customer d = true → d ∈ db.orders

section

variable {xs : List NewOrderLine} {resolved : List ResolvedOrderLine}

/-- **When the draft is placed.** -/
theorem placeDrafted_returns (user : Option ℕ) (hc : OfferConstraints db) (hrefs : References db)
    (h : OpsDraft rt db customer inputs xs resolved) :
    (∃ db', placeOrder rt (db.withOpsDraft rt customer xs) db.orders.next
      (prepareBusinessOrderForPlacement rt) user = .ok db') ↔ StockSuffices rt db inputs := by
  have hlines := h.lines hrefs
  have hserved : ∀ l ∈ (db.withOpsDraft rt customer xs).orderLines db.orders.next,
      ∃ r ∈ resolved, OpsDraft.Line r l := fun l hl => forall₂_right hlines l hl
  obtain ⟨offer, hoffer⟩ := exists_offers (fun l hl => by
    obtain ⟨r, hr, hline⟩ := hserved l hl
    exact ⟨_, h.servable hr hline⟩)
  have hc' : OfferConstraints (db.withOpsDraft rt customer xs) := hc.frame rfl rfl
  -- the draft changes no pool and reserves nothing
  have hpool : ∀ o, (db.withOpsDraft rt customer xs).poolCapacity rt.now
        (listOrderableBatchesForOffer rt (db.withOpsDraft rt customer xs) o .eur)
      = db.poolCapacity rt.now (listOrderableBatchesForOffer rt db o .eur) := fun o => rfl
  have hloop : (∃ db', ((db.withOpsDraft rt customer xs).orderLines db.orders.next).foldlM
        (reserveBusinessLine rt) (db.withOpsDraft rt customer xs) = .ok db') ↔ _ :=
    reserveBusinessLines_returns hc' hoffer (h.offers_nodup hrefs)
  rw [h.stockSuffices_iff]
  constructor
  · rintro ⟨db', hplace⟩ r hr
    obtain ⟨o, ho, hok, -, db₁, hprep, -⟩ := placeOrder_eq_ok.mp hplace
    unfold prepareBusinessOrderForPlacement at hprep
    simp only [bind_eq_ok, require_eq_ok, exists_const] at hprep
    obtain ⟨-, -, hreserve⟩ := hprep
    rw [hok] at hreserve
    obtain ⟨l, hl, hline⟩ := forall₂_left hlines r hr
    have hfit := hloop.mp ⟨db₁, hreserve⟩ l hl
    rw [(hoffer l hl).unique (h.servable hr hline), hpool] at hfit
    rw [← hline.quantity]
    exact_mod_cast hfit
  · intro hfits
    obtain ⟨db₁, hreserve⟩ := hloop.mpr (fun l hl => by
      obtain ⟨r, hr, hline⟩ := hserved l hl
      have hfit := hfits r hr
      rw [← hline.quantity] at hfit
      rw [(hoffer l hl).unique (h.servable hr hline), hpool]
      exact_mod_cast hfit)
    have hprep : prepareBusinessOrderForPlacement rt (db.withOpsDraft rt customer xs)
        (opsOrder rt db customer) = .ok db₁ := by
      unfold prepareBusinessOrderForPlacement
      simp only [bind_eq_ok, require_eq_ok, exists_const]
      exact ⟨rfl, h.lines_ne_nil hrefs, hreserve⟩
    exact ⟨_, placeOrder_eq_ok.mpr ⟨opsOrder rt db customer, Table.mem_insert.mpr (Or.inr rfl), rfl,
      rfl, db₁, hprep, rfl⟩⟩

/-- What placing the draft leaves. -/
theorem placedForCustomer (hrefs : References db) (h : OpsDraft rt db customer inputs xs resolved)
    {db' : Db} (hplace : placeOrder rt (db.withOpsDraft rt customer xs) db.orders.next
      (prepareBusinessOrderForPlacement rt) user = .ok db') :
    PlacedForCustomer db customer inputs db' := by
  obtain ⟨o, ho, hok, -, db₁, hprep, rfl⟩ := placeOrder_eq_ok.mp hplace
  have ho : o = opsOrder rt db customer := Inv.mem_insertOrder ho hok
  subst ho
  obtain ⟨-, -, ys, rfl, -⟩ := Inv.prepareBusiness_eq_ok hprep
  -- The orders after the placement: the placed one and all others.
  have hput : ∀ d, d ∈ (db.orders.insert (newOrder rt .business .eur (some customer))).put
      ((opsOrder rt db customer).asPlaced rt.now user) ↔
      d = (opsOrder rt db customer).asPlaced rt.now user ∨ d ∈ db.orders := by
    intro d
    have hex : ∃ o ∈ db.orders.insert (newOrder rt .business .eur (some customer)),
        Row.pk o = Row.pk ((opsOrder rt db customer).asPlaced rt.now user) :=
      ⟨opsOrder rt db customer, Table.mem_insert.mpr (Or.inr rfl), rfl⟩
    rw [Table.mem_put hex, Table.mem_insert]
    refine or_congr_right ⟨?_, fun hd => ⟨Or.inl hd, Inv.fresh_next d hd⟩⟩
    rintro ⟨hd | rfl, hne⟩
    · exact hd
    · exact absurd rfl hne
  refine ⟨⟨_, (hput _).mpr (Or.inl rfl), Inv.fresh_next, rfl, rfl, rfl, resolved, h.merged,
    h.lines hrefs⟩, fun d hd => ⟨(hput d).mpr (Or.inr hd), ?_⟩, fun d hd hdraft => ?_⟩
  · -- the lines that were inserted are lines of the new order
    show (db.lines.insertAll _).select _ = db.lines.select _
    refine Table.select_insertAll_of_disjoint (fun l hl horder => ?_)
    have hmem : l ∈ (db.withOpsDraft rt customer xs).orderLines db.orders.next := by
      rw [h.orderLines hrefs]
      exact hl
    have hnext := (Db.mem_orderLines.mp hmem).2
    exact Inv.fresh_next d hd ((of_decide_eq_true horder).symm.trans hnext)
  · rcases (hput d).mp hd with rfl | hd
    · simp [isBusinessDraftOf] at hdraft
    · exact hd

end

/-! ### Both together -/

/-- What cannot be drafted changes nothing. -/
theorem createOrder_refused (rt : Runtime) (user : Option ℕ)
    (hweights : ∀ p ∈ db.products, 0 < p.weightPerUnit)
    (h : ¬ Draftable db customer inputs) :
    ∃ e, OpsPortal.createOrder rt db customer inputs user = (db, .error e) := by
  obtain ⟨e, he⟩ := exists_error (fun r hr => h ((opsDraft_returns rt hweights).mp ⟨r, hr⟩))
  unfold OpsPortal.createOrder
  rw [he]
  exact ⟨e, rfl⟩

/-- With a draft, the outcome is that of the placement. -/
theorem createOrder_drafted (rt : Runtime) (user : Option ℕ)
    (hweights : ∀ p ∈ db.products, 0 < p.weightPerUnit)
    (h : Draftable db customer inputs) :
    ∃ xs resolved, OpsDraft rt db customer inputs xs resolved
      ∧ ((∃ db', OpsPortal.createOrder rt db customer inputs user = (db', .ok ())
          ∧ placeOrder rt (db.withOpsDraft rt customer xs) db.orders.next
            (prepareBusinessOrderForPlacement rt) user = .ok db')
        ∨ ∃ e, OpsPortal.createOrder rt db customer inputs user
            = (db.withOpsDraft rt customer xs, .error e)
          ∧ placeOrder rt (db.withOpsDraft rt customer xs) db.orders.next
            (prepareBusinessOrderForPlacement rt) user = .error e) := by
  obtain ⟨r, hr⟩ := (opsDraft_returns rt hweights).mpr h
  obtain ⟨xs, resolved, hdraft, rfl⟩ := opsDraft_eq_ok hr
  refine ⟨xs, resolved, hdraft, ?_⟩
  unfold OpsPortal.createOrder
  rw [hr]
  -- The draft stays committed whichever way the placement goes.
  cases hplace : placeOrder rt (db.withOpsDraft rt customer xs) (opsOrder rt db customer).pk
      (prepareBusinessOrderForPlacement rt) user with
  | ok db' => exact Or.inl ⟨db', by simp only [hplace], hplace⟩
  | error e => exact Or.inr ⟨e, by simp only [hplace], hplace⟩

/-- Whatever creating the order raises, the database is as it was. -/
def AllOrNothing (rt : Runtime) (db : Db) (customer : ℕ) (inputs : List BusinessOfferLineInput)
    (user : Option ℕ) : Prop :=
  ∀ e, (OpsPortal.createOrder rt db customer inputs user).2 = .error e →
    (OpsPortal.createOrder rt db customer inputs user).1 = db

/-- **All or nothing.** A failure leaves nothing behind iff no draft is saved that cannot be
    placed. -/
theorem ops_order_all_or_nothing (hc : OfferConstraints db) (hrefs : References db)
    (hweights : ∀ p ∈ db.products, 0 < p.weightPerUnit) :
    AllOrNothing rt db customer inputs user ↔
      (Draftable db customer inputs → StockSuffices rt db inputs) := by
  -- If a draft can be built, only enough stock keeps the call from leaving it behind.
  constructor
  · intro hall hdraftable
    obtain ⟨xs, resolved, hdraft, ⟨db', -, hplace⟩ | ⟨e, hcreate, -⟩⟩ :=
      createOrder_drafted rt user hweights hdraftable
    · exact (placeDrafted_returns user hc hrefs hdraft).mp ⟨db', hplace⟩
    · -- the draft is an order that was not there before
      exfalso
      have heq : db.withOpsDraft rt customer xs = db := by
        have hsame := hall e (by rw [hcreate])
        rwa [hcreate] at hsame
      have hmem : opsOrder rt db customer ∈ (db.withOpsDraft rt customer xs).orders :=
        Table.mem_insert.mpr (Or.inr rfl)
      rw [heq] at hmem
      exact Inv.fresh_next _ hmem rfl
  · intro hstock e he
    by_cases hdraftable : Draftable db customer inputs
    · obtain ⟨xs, resolved, hdraft, ⟨db', hcreate, -⟩ | ⟨e', -, hplace⟩⟩ :=
        createOrder_drafted rt user hweights hdraftable
      · rw [hcreate] at he
        cases he
      · obtain ⟨db', hok⟩ := (placeDrafted_returns user hc hrefs hdraft).mpr
          (hstock hdraftable)
        rw [hplace] at hok
        cases hok
    · obtain ⟨e', hcreate⟩ := createOrder_refused rt user hweights hdraftable
      rw [hcreate]

namespace Shop

/-- The shop with ten units and no order. -/
def stocked : Db := (State.init.after opening).db

/-- The example's keys are references. -/
theorem references_stall : References stall :=
  (inv_of_reachable (reachable_after _ (by decide))).references

/-- The example's products have a weight. -/
theorem weights_stall : ∀ p ∈ stall.products, 0 < p.weightPerUnit := by
  have hall : ∀ p ∈ stall.products.rows, 0 < p.weightPerUnit := by decide +kernel
  exact hall

end Shop

/-- Seven units are free beside the order there is.  Four of them are asked for together with
    one unit of an offer that does not exist: nothing is saved. -/
theorem ops_order_all_or_nothing_shop :
    (OpsPortal.createOrder (Shop.runtime 4) Shop.stall 7 [stockLine 1 4, stockLine 9 1] none).2
        = .error (.invalidOrderOperation "Business offer does not exist: 9")
      ∧ AllOrNothing (Shop.runtime 4) Shop.stall 7 [stockLine 1 4, stockLine 9 1] none := by
  refine ⟨by decide +kernel, (ops_order_all_or_nothing Shop.stall_offers.constraints
    Shop.references_stall Shop.weights_stall).mpr (fun h => ?_)⟩
  obtain ⟨o, p, hop⟩ := h.resolves (stockLine 9 1) (by simp)
  have hunknown : ∀ o ∈ Shop.stall.commercialPrices.rows, o.pk ≠ 9 := by decide +kernel
  exact absurd hop.offer (hunknown o hop.known)

/-- Eleven of the ten units are ordered: the draft stays behind. -/
theorem ops_order_leaves_draft :
    (OpsPortal.createOrder (Shop.runtime 1) Shop.stocked 7 [stockLine 1 11] none).2
        = .error (.insufficientStockError "Brand — Name" 11 10 1)
      ∧ Shop.stocked.orders.rows = []
      ∧ ∃ o ∈ (OpsPortal.createOrder (Shop.runtime 1) Shop.stocked 7 [stockLine 1 11] none).1.orders,
        o.status = .draft ∧ o.customerId = some 7 := by
  refine ⟨by decide +kernel, by decide +kernel, ?_⟩
  show ∃ o ∈ (OpsPortal.createOrder (Shop.runtime 1) Shop.stocked 7 [stockLine 1 11]
    none).1.orders.rows, _
  decide +kernel

/-- The order is placed, whatever else the customer is doing. -/
def PlacedIndependently (rt : Runtime) (db : Db) (customer : ℕ) (inputs : List BusinessOfferLineInput)
    (user : Option ℕ) : Prop :=
  ∃ db', OpsPortal.createOrder rt db customer inputs user = (db', .ok ())
    ∧ PlacedForCustomer db customer inputs db'

/-- **Independence of the portal draft.** Lines that resolve and fit the stock are placed iff the
    customer has no open draft, there is a line, and the columns hold the units. -/
theorem ops_order_independent (hc : OfferConstraints db) (hrefs : References db)
    (hweights : ∀ p ∈ db.products, 0 < p.weightPerUnit)
    (hresolves : ∀ line ∈ inputs, ∃ o p, Resolvable db line o p)
    (hstock : StockSuffices rt db inputs) :
    PlacedIndependently rt db customer inputs user ↔
      NoOpenDraft db customer ∧ inputs ≠ [] ∧ UnitsFit db inputs := by
  -- What the draft needs is what the call needs, since the stock suffices.
  constructor
  · rintro ⟨db', hcreate, -⟩
    by_contra hopen
    obtain ⟨e, herror⟩ := createOrder_refused rt user hweights
      (fun h : Draftable db customer inputs => hopen ⟨h.noDraft, h.nonempty, h.units⟩)
    rw [hcreate] at herror
    cases herror
  · rintro ⟨hnone, hne, hunits⟩
    obtain ⟨xs, resolved, hdraft, ⟨db', hcreate, hplace⟩ | ⟨e, -, hplace⟩⟩ :=
      createOrder_drafted rt user hweights ⟨hne, hresolves, hunits, hnone⟩
    · exact ⟨db', hcreate, placedForCustomer hrefs hdraft hplace⟩
    · obtain ⟨db', hok⟩ := (placeDrafted_returns user hc hrefs hdraft).mpr hstock
      rw [hplace] at hok
      cases hok

namespace Shop

/-- Any number of units of the standard offer resolves, and of the clearance batch. -/
theorem resolvable {db : Db} {o : CommercialPrice} (hoffer : o ∈ db.commercialPrices)
    (hproduct : product ∈ db.products) (ho : o = businessOffer ∨ o = clearanceOffer) {n : ℕ}
    (hn : 0 < n) : Resolvable db (stockLine o.pk n) o product where
  known := hoffer
  product := ⟨hproduct, by rcases ho with rfl | rfl <;> rfl⟩
  business := by rcases ho with rfl | rfl <;> rfl
  available := ⟨rfl, by rcases ho with rfl | rfl <;> rfl⟩
  priced := by rcases ho with rfl | rfl <;> decide
  offer := rfl
  quantity := admits_stock.mpr hn

/-- Three units of the standard offer on two lines, and two of the clearance batch. -/
def mixedLines : List BusinessOfferLineInput := [stockLine 1 2, stockLine 2 2, stockLine 1 1]

end Shop

/-- The customer has a placed order and no draft: its second order is placed, with the two lines
    of one offer merged. -/
theorem ops_order_independent_shop :
    PlacedIndependently (Shop.runtime 4) Shop.stall 7 Shop.mixedLines none := by
  have hstandard : Shop.businessOffer ∈ Shop.stall.commercialPrices.rows := by decide +kernel
  have hclearance : Shop.clearanceOffer ∈ Shop.stall.commercialPrices.rows := by decide +kernel
  have hproduct : Shop.product ∈ Shop.stall.products.rows := by decide +kernel
  refine (ops_order_independent Shop.stall_offers.constraints Shop.references_stall
    Shop.weights_stall (fun line hline => ?_) (fun _ _ o p hop => ?_)).mpr
      ⟨?_, List.cons_ne_nil _ _, fun _ _ o p hop => ?_⟩
  · simp only [Shop.mixedLines, List.mem_cons, List.not_mem_nil, or_false] at hline
    rcases hline with rfl | rfl | rfl
    · exact ⟨_, _, Shop.resolvable hstandard hproduct (Or.inl rfl) (by decide)⟩
    · exact ⟨_, _, Shop.resolvable hclearance hproduct (Or.inr rfl) (by decide)⟩
    · exact ⟨_, _, Shop.resolvable hstandard hproduct (Or.inl rfl) (by decide)⟩
  -- Both offers have enough in their pools.
  · have hfits : ∀ p ∈ Shop.stall.products.rows, ∀ o ∈ Shop.stall.commercialPrices.rows,
        unitsOrdered Shop.mixedLines p o.pk ≤ Shop.stall.poolCapacity (Shop.runtime 4).now
          (listOrderableBatchesForOffer (Shop.runtime 4) Shop.stall o .eur) := by decide +kernel
    exact hfits p hop.product.1 o hop.known
  · have hnone : ∀ o ∈ Shop.stall.orders.rows, isBusinessDraftOf 7 o = false := by decide +kernel
    exact hnone
  · have hcolumn : ∀ p ∈ Shop.stall.products.rows, ∀ o ∈ Shop.stall.commercialPrices.rows,
        unitsOrdered Shop.mixedLines p o.pk < 10 ^ quantityDigits := by decide +kernel
    exact hcolumn p hop.product.1 o hop.known

/-- A customer with an open draft: one of the ten units cannot be ordered for it. -/
theorem ops_order_meets_draft :
    (∀ line ∈ [stockLine 1 1], ∃ o p, Resolvable Shop.draftOpened.db line o p)
      ∧ StockSuffices (Shop.runtime 4) Shop.draftOpened.db [stockLine 1 1]
      ∧ (OpsPortal.createOrder (Shop.runtime 4) Shop.draftOpened.db 7 [stockLine 1 1] none).2
        = .error (.integrityError "unique_business_draft_order_per_customer") := by
  have hoffer : Shop.businessOffer ∈ Shop.draftOpened.db.commercialPrices.rows := by decide +kernel
  have hproduct : Shop.product ∈ Shop.draftOpened.db.products.rows := by decide +kernel
  -- The stock suffices, so it is the draft that is in the way.
  have hfits : ∀ p ∈ Shop.draftOpened.db.products.rows,
      ∀ o ∈ Shop.draftOpened.db.commercialPrices.rows, unitsOrdered [stockLine 1 1] p o.pk
        ≤ Shop.draftOpened.db.poolCapacity (Shop.runtime 4).now
          (listOrderableBatchesForOffer (Shop.runtime 4) Shop.draftOpened.db o .eur) := by
    decide +kernel
  refine ⟨fun line hline => ?_, fun _ _ o p hop => hfits p hop.product.1 o hop.known,
    by decide +kernel⟩
  rw [List.mem_singleton] at hline
  exact ⟨_, _, hline ▸ Shop.resolvable hoffer hproduct (Or.inl rfl) (by decide)⟩

end SwedeSweets
