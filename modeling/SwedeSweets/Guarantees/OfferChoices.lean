import SwedeSweets.Business.PlacedEdits
import SwedeSweets.Business.OfferChoices
import SwedeSweets.Guarantees.RetailCatalog

namespace SwedeSweets

open Relational Fallible

/-!
# The units of the edit form

The form for a placed order shows, for each offer, the free units of its pool and the units of
the order's own line (`Business.get?_choiceUnits`).  The edit plans with the units that are free
once the reservations of the order are deleted (`poolCapacity_cleared`).

* `Truthful` — the figures are what the edit plans with;
* `Editable` — an edit within the figures goes through;
* `offer_choices_truthful` — both hold iff the reservations of the order lie in the pools its
  lines are for, as these are now (`Undisturbed`).
-/

/-! ### Lines that staff selected -/

variable {rt : Runtime} {db : Db}

/-- A loop that adds positive amounts ends with positive sums. -/
theorem positive_of_adds {α : Type} {f : Dict ℕ ℤ → α → Result (Dict ℕ ℤ)}
    (hf : ∀ x d d', f d x = .ok d' → ∃ k q, 0 < q ∧ d' = d.add k q) {xs : List α} {d : Dict ℕ ℤ}
    (h : xs.foldlM f Dict.empty = .ok d) : ∀ e ∈ d.entries, 0 < e.2 := by
  -- Every key has been added to, and only positive quantities are added.
  have hsums : ∀ k, 0 ≤ d.getD k 0 ∧ (k ∈ d.keys → 0 < d.getD k 0) := by
    refine (chain_of_foldlM (R := fun _ d d' => ∃ k q, 0 < q ∧ d' = d.add k q) hf h).preserves
      (I := fun d => ∀ k, 0 ≤ d.getD k 0 ∧ (k ∈ d.keys → 0 < d.getD k 0)) ?_ ?_
    · rintro - - d - ⟨k, q, hq, rfl⟩ hd k'
      rw [Dict.getD_add, Dict.mem_keys_add]
      obtain ⟨hnonneg, hpos⟩ := hd k'
      by_cases hk : k' = k
      · subst hk
        rw [if_pos rfl]
        exact ⟨by omega, fun _ => by omega⟩
      · rw [if_neg hk]
        exact ⟨hnonneg, fun hmem => hpos (hmem.resolve_right hk)⟩
    · exact fun k => ⟨le_refl 0, fun hk => by cases hk⟩
  intro e he
  have hpos := (hsums e.1).2 (List.mem_map_of_mem he)
  rwa [Dict.getD_of_mem he] at hpos

/-- A selectable offer is sellable. -/
theorem Selectable.sellable {o : CommercialPrice} {p : Product} (h : Selectable db o p) :
    o.Sellable db := by
  refine ⟨?_, h.available.2, fun hbatch => ?_⟩
  · exact productActive_iff.mpr ⟨p, h.product.1, h.product.2, h.available.1⟩
  · exact hasAmount_iff.mpr (Option.ne_none_iff_exists'.mp (h.priced hbatch))

/-- What staff select resolves to lines under offers that may be sold. -/
theorem offerLine_of_resolved {inputs : List BusinessOfferLineInput}
    {lines : List ResolvedOrderLine} (h : resolveBusinessOfferLines db inputs = .ok lines) :
    ∀ line ∈ lines, OfferLine db line := by
  intro line hline
  obtain ⟨-, hmerged⟩ := merged_of_resolve h
  have hselectable := hmerged.selectable line hline
  refine ⟨hselectable.known, hselectable.product.2.symm, hselectable.business,
    hselectable.sellable, ?_, fun c hc => ?_⟩
  -- A line's quantity is what the inputs added up to.
  · unfold resolveBusinessOfferLines at h
    simp only [bind_eq_ok, require_eq_ok, exists_const] at h
    obtain ⟨-, selections, -, quantities, hquantities, hlines⟩ := h
    obtain ⟨e, he, hentry⟩ := exists_of_mem_mapM hlines hline
    simp only [bind_eq_ok, orRaise_eq_ok, pure_eq_ok] at hentry
    obtain ⟨selection, -, rfl⟩ := hentry
    refine positive_of_adds (fun lineInput d d' hd => ?_) hquantities e he
    simp only [bind_eq_ok, requirePositiveQuantity, require_eq_ok, exists_const, pure_eq_ok] at hd
    obtain ⟨added, -, q, -, hpos, rfl⟩ := hd
    exact ⟨added.1.pk, q, hpos, rfl⟩
  · rw [hmerged.price line hline] at hc
    obtain ⟨amount, -, rfl⟩ := Option.map_eq_some_iff.mp (Option.mem_def.mp hc)
    exact amount.price_pos

/-- Units of an offer that may be sold resolve to one line. -/
theorem resolve_units {o : CommercialPrice} (ho : o ∈ db.commercialPrices)
    (hch : o.channel = .business) (hs : o.Sellable db) {n : ℕ} (hn : 0 < n) :
    ∃ line, resolveBusinessOfferLines db [⟨o.pk, n, .stock⟩] = .ok [line]
      ∧ line.commercialOffer = o ∧ line.quantityInUnits = n := by
  obtain ⟨product, hproduct, hpk, hactive⟩ := productActive_iff.mp hs.1
  have hget : db.getProduct o.productId = .ok product := by
    unfold Db.getProduct
    rw [orRaise_eq_ok]
    exact Table.get?_eq_some.mpr ⟨hproduct, hpk⟩
  have hselect : db.commercialPrices.select (fun x => [o.pk].contains x.pk) = [o] :=
    Table.select_eq_singleton ho (fun x hx => by
      rw [List.contains_iff_mem, List.mem_singleton]
      exact ⟨fun h => Table.eq_of_pk_eq (t := db.commercialPrices) hx ho h, fun h => h ▸ rfl⟩)
  have hpriced : ¬(o.batchId ≠ none ∧ o.findAmount .eur = none) := by
    rintro ⟨hbatch, hnone⟩
    obtain ⟨amount, hamount⟩ := hasAmount_iff.mp (hs.2.2 hbatch)
    rw [hnone] at hamount
    cases hamount
  -- A sellable offer passes the selection's checks.
  have hvalid : validateOfferSelection db o
      = .ok (o, product, (o.findAmount .eur).map PriceAmount.price) := by
    unfold validateOfferSelection
    simp only [bind_eq_ok, require_eq_ok, exists_const, pure_eq_ok]
    exact ⟨product, hget, hch, ⟨hactive, hs.2.1⟩, hpriced, rfl⟩
  -- A quantity in stock units is its own number of units.
  have hunits : quantityToUnits product n .stock = .ok (n : ℤ) := by
    unfold quantityToUnits
    simp only [bind_eq_ok, require_eq_ok, exists_const, pure_eq_ok, Int.floor_natCast]
    exact ⟨by exact_mod_cast hn, by norm_cast, trivial⟩
  refine ⟨⟨product, n, o, (o.findAmount .eur).map PriceAmount.price⟩, ?_, rfl, rfl⟩
  unfold resolveBusinessOfferLines
  simp only [List.map_cons, List.map_nil, List.dedup_cons_of_notMem List.not_mem_nil, List.dedup_nil,
    hselect, bind_eq_ok, require_eq_ok, exists_const, List.mapM_cons, List.mapM_nil, pure_eq_ok]
  refine ⟨by simp, _, ⟨_, hvalid, _, rfl, rfl⟩, Dict.empty.add o.pk n, ?_, ?_⟩
  · simp only [List.foldlM_cons, List.foldlM_nil, bind_eq_ok, orRaise_eq_ok, requirePositiveQuantity,
      require_eq_ok, exists_const, pure_eq_ok]
    exact ⟨_, ⟨(o, product, (o.findAmount .eur).map PriceAmount.price), by simp, n, hunits,
      by exact_mod_cast hn, rfl⟩, rfl⟩
  · simp [Dict.add, Dict.addEntry, Dict.empty, orRaise]

/-! ### What deleting the reservations frees -/

/-- The units an order has RESERVED on the batches of a pool. -/
def Db.reservedIn (db : Db) (orderPk : ℕ) (batches : BatchQuery) : ℕ :=
  db.batches.total (fun b => if batches b = true then db.reservedBy orderPk b.pk else 0)

/-- The reservations of an order and the others make up what is reserved on a batch. -/
theorem activeReserved_split {now : Time} {k : ℕ}
    (hactive : ∀ a ∈ db.allocations, reservedOf k a = true → a.isActive now = true) (b : ℕ) :
    db.activeReserved now b
      = (deleteReservationsForOrder db k).activeReserved now b + db.reservedBy k b := by
  unfold Db.activeReserved Db.reservedBy deleteReservationsForOrder
  rw [Table.total_delete, ← Table.total_add]
  refine Table.total_congr (fun a ha => ?_)
  by_cases hr : reservedOf k a = true
  · unfold Allocation.activeOn
    simp only [hr, hactive a ha hr, if_true, and_true, true_and, Nat.zero_add]
  · simp only [hr, if_false, false_and, Nat.add_zero, Bool.false_eq_true]

/-- **What the edit plans with.** The free units of a pool and those the order has there. -/
theorem poolCapacity_cleared {now : Time} {k : ℕ} (hfit : ReservationsFit now db)
    (hactive : ∀ a ∈ db.allocations, reservedOf k a = true → a.isActive now = true)
    (batches : BatchQuery) :
    (deleteReservationsForOrder db k).poolCapacity now batches
      = db.poolCapacity now batches + db.reservedIn k batches := by
  rw [Db.poolCapacity_eq, Db.poolCapacity_eq, Db.reservedIn, ← Table.total_add]
  refine Table.total_congr (fun b hb => ?_)
  by_cases hq : batches b = true
  · have hsplit := activeReserved_split hactive b.pk
    have hle := hfit b hb
    rw [if_pos hq, if_pos hq, if_pos hq]
    unfold Db.freeUnits
    omega
  · rw [if_neg hq, if_neg hq, if_neg hq]

/-! ### The guarantee -/

/-- Every figure of the form is the number of units that can be planned from the pool of the
    offer once the reservations of the order are deleted. -/
def Truthful (rt : Runtime) (db : Db) (orderPk : ℕ) (ctx : BusinessOfferChoiceContext) : Prop :=
  ∀ offerId n, ctx.availableUnitsByOfferId.get? offerId = some n →
    ∃ o ∈ db.commercialPrices, o.pk = offerId
      ∧ n = (deleteReservationsForOrder db orderPk).poolCapacity rt.now
          (listOrderableBatchesForOffer rt db o .eur)

/-- Every edit within the figures goes through, at any later time on the same date. -/
def Editable (rt : Runtime) (db : Db) (orderPk : ℕ) (ctx : BusinessOfferChoiceContext) : Prop :=
  ∀ rt' : Runtime, rt'.today = rt.today → rt.now ≤ rt'.now →
    ∀ inputs lines user, resolveBusinessOfferLines db inputs = .ok lines → lines ≠ [] →
      (∀ line ∈ lines, line.quantityInUnits
        ≤ ctx.availableUnitsByOfferId.getD line.commercialOffer.pk 0) →
      ∃ db', OpsPortal.updatePlacedOrder rt' db orderPk inputs user = .ok db'

/-- The offers the form has a figure for. -/
structure Shown (rt : Runtime) (db : Db) (orderPk : ℕ) (o : CommercialPrice) : Prop where
  mem : o ∈ db.commercialPrices
  channel : o.channel = .business
  sellable : o.Sellable db
  selectable : 0 < db.poolCapacity rt.now (listOrderableBatchesForOffer rt db o .eur)
    ∨ ∃ l ∈ db.orderLines orderPk, l.commercialOfferId = o.pk

/-- Since the order was placed nothing moved: what it has reserved in the pool of an offer is
    what its line for the offer is for, and it has one line for each offer, of the offer's
    product.  No figure is past what the column of a line holds. -/
structure Undisturbed (rt : Runtime) (db : Db) (orderPk : ℕ) : Prop where
  held : ∀ o, Shown rt db orderPk o → Business.unitsUnder (db.orderLines orderPk) o.pk
    = db.reservedIn orderPk (listOrderableBatchesForOffer rt db o .eur)
  oneLine : (∃ o, Shown rt db orderPk o) →
    ((db.orderLines orderPk).map OrderLine.commercialOfferId).Nodup
  product : ∀ o, Shown rt db orderPk o → ∀ l ∈ db.orderLines orderPk,
    l.commercialOfferId = o.pk → o.productId = l.productId
  column : ∀ o, Shown rt db orderPk o →
    db.poolCapacity rt.now (listOrderableBatchesForOffer rt db o .eur)
      + Business.unitsUnder (db.orderLines orderPk) o.pk < 10 ^ quantityDigits

/-- The figures of the form for a placed order. -/
theorem figure_iff (hc : OfferConstraints db) (hfit : ReservationsFit rt.now db) {o : Order}
    (hst : o.status = .placed) {ctx : BusinessOfferChoiceContext}
    (hctx : Business.buildBusinessOfferChoiceContext rt db (some o) = .ok ctx) {k : ℕ} {n : ℤ} :
    ctx.availableUnitsByOfferId.get? k = some n ↔ ∃ x, Shown rt db o.pk x ∧ x.pk = k
      ∧ n = db.poolCapacity rt.now (listOrderableBatchesForOffer rt db x .eur)
        + Business.unitsUnder (db.orderLines o.pk) k := by
  unfold Business.buildBusinessOfferChoiceContext at hctx
  simp only [bind_eq_ok, pure_eq_ok] at hctx
  obtain ⟨catalog, hcatalog, rfl⟩ := hctx
  show (Business.choiceUnits db catalog (some o)).get? k = some n ↔ _
  rw [Business.get?_choiceUnits hc hfit hcatalog (by rw [hst]; decide)]
  -- The figure is the catalog's units plus the order's own.
  constructor
  · rintro ⟨x, hx, rfl, hch, hs, hsel, hn⟩
    exact ⟨x, ⟨hx, hch, hs, hsel⟩, rfl, hn⟩
  · rintro ⟨x, hx, rfl, hn⟩
    exact ⟨x, hx.mem, rfl, hx.channel, hx.sellable, hx.selectable, hn⟩

/-- The figure of an offer that is shown is positive. -/
theorem Shown.positive {k : ℕ} {o : CommercialPrice} (h : Shown rt db k o) :
    0 < db.poolCapacity rt.now (listOrderableBatchesForOffer rt db o .eur)
      + Business.unitsUnder (db.orderLines k) o.pk := by
  rcases h.selectable with hcap | ⟨l, hl, hoffer⟩
  · omega
  · have hunits : l.quantityInUnits ≤ Business.unitsUnder (db.orderLines k) o.pk := by
      unfold Business.unitsUnder
      refine List.single_le_sum (fun _ _ => Nat.zero_le _) _ (List.mem_map.mpr ⟨l, hl, ?_⟩)
      exact if_pos hoffer
    have hpos := l.quantity_pos
    omega

/-- A figure is truthful iff the units of the line are those the order has in the pool. -/
theorem truthful_iff (hc : OfferConstraints db) (hfit : ReservationsFit rt.now db) {o : Order}
    (hst : o.status = .placed) {ctx : BusinessOfferChoiceContext}
    (hctx : Business.buildBusinessOfferChoiceContext rt db (some o) = .ok ctx)
    (hactive : ∀ a ∈ db.allocations, reservedOf o.pk a = true → a.isActive rt.now = true) :
    Truthful rt db o.pk ctx ↔ ∀ x, Shown rt db o.pk x →
      Business.unitsUnder (db.orderLines o.pk) x.pk
        = db.reservedIn o.pk (listOrderableBatchesForOffer rt db x .eur) := by
  -- Clearing the order frees what it reserves in the pool; the figure adds its units under the
  -- offer.
  constructor
  · intro htruthful x hx
    obtain ⟨y, hy, hyx, hn⟩ :=
      htruthful x.pk _ ((figure_iff hc hfit hst hctx).mpr ⟨x, hx, rfl, rfl⟩)
    obtain rfl : y = x := Table.eq_of_pk_eq (t := db.commercialPrices) hy hx.mem hyx
    rw [poolCapacity_cleared hfit hactive] at hn
    omega
  · intro hheld k n hn
    obtain ⟨x, hx, rfl, rfl⟩ := (figure_iff hc hfit hst hctx).mp hn
    refine ⟨x, hx.mem, rfl, ?_⟩
    rw [poolCapacity_cleared hfit hactive, hheld x hx]
    omega

/-- When every edit within the figures goes through, so does the one that asks for so many units
    of one offer. -/
theorem edit_of_editable (hc : OfferConstraints db) (hfit : ReservationsFit rt.now db)
    {o : Order} (hst : o.status = .placed) {ctx : BusinessOfferChoiceContext}
    (hctx : Business.buildBusinessOfferChoiceContext rt db (some o) = .ok ctx)
    (h : Editable rt db o.pk ctx) {x : CommercialPrice} (hx : Shown rt db o.pk x) {n : ℕ}
    (hn : 0 < n) (hle : n ≤ db.poolCapacity rt.now (listOrderableBatchesForOffer rt db x .eur)
      + Business.unitsUnder (db.orderLines o.pk) x.pk) :
    ∃ line db', line.commercialOffer = x ∧ line.quantityInUnits = (n : ℤ)
      ∧ SwedeSweets.updatePlacedOrder rt db o.pk [line] clearOrderReservationsBeforeLineReplacement
          (prepareBusinessOrderForPlacement rt) none = .ok db' := by
  obtain ⟨line, hresolve, rfl, hunits⟩ := resolve_units hx.mem hx.channel hx.sellable hn
  -- The figure of the offer allows `n` units.
  have hfigure := (figure_iff hc hfit hst hctx).mpr ⟨_, hx, rfl, rfl⟩
  obtain ⟨db', hok⟩ := h rt rfl (le_refl _) _ _ none hresolve (List.cons_ne_nil _ _) (by
    intro line' hline'
    obtain rfl := List.mem_singleton.mp hline'
    unfold Dict.getD
    rw [hfigure, hunits, Option.getD_some]
    exact_mod_cast hle)
  unfold OpsPortal.updatePlacedOrder at hok
  simp only [bind_eq_ok, hresolve, Except.ok.injEq, exists_eq_left'] at hok
  exact ⟨line, db', rfl, hunits, hok⟩

/-- When an edit for one unit of an offer goes through, the lines of the order are for distinct
    offers, and the one for that offer is for its product. -/
theorem lines_of_editable (hc : OfferConstraints db) (hfit : ReservationsFit rt.now db)
    {o : Order} (hst : o.status = .placed) {ctx : BusinessOfferChoiceContext}
    (hctx : Business.buildBusinessOfferChoiceContext rt db (some o) = .ok ctx)
    (h : Editable rt db o.pk ctx) {x : CommercialPrice} (hx : Shown rt db o.pk x) :
    ((db.orderLines o.pk).map OrderLine.commercialOfferId).Nodup ∧
      ∀ l ∈ db.orderLines o.pk, l.commercialOfferId = x.pk → x.productId = l.productId := by
  obtain ⟨line, db', rfl, -, hok⟩ :=
    edit_of_editable hc hfit hst hctx h hx Nat.one_pos hx.positive
  obtain ⟨-, -, -, -, db₂, offer, xs, hre, -⟩ := updatePlacedOrder_rebuilt hc hok
  refine ⟨hre.known, fun l hl hoffer => ?_⟩
  -- the line is kept, and what is reserved for it comes from the pool of the offer
  obtain ⟨l', hl', hl'offer⟩ := hre.edited.served line (List.mem_singleton_self _)
  have hserv := hre.servable l' hl'
  have hprice : offer l' = line.commercialOffer := Table.eq_of_pk_eq (t := db.commercialPrices)
    (hre.edited.prices ▸ hserv.mem) hx.mem (hserv.offer.trans hl'offer)
  obtain ⟨-, -, -, -, ⟨y, hy, hsame⟩ | ⟨-, -, hnone⟩⟩ := hre.edited.line l' hl'
  · have heq : y = l := List.inj_on_of_nodup_map hre.known hy hl
      (hsame.offer.symm.trans (hl'offer.trans hoffer.symm))
    rw [← hprice, hserv.product, hsame.product, heq]
  · exact absurd (hoffer.trans hl'offer.symm) (hnone l hl)

/-- When an edit for as many units as a figure shows goes through, the column holds them. -/
theorem column_of_editable (hc : OfferConstraints db) (hfit : ReservationsFit rt.now db)
    {o : Order} (hst : o.status = .placed) {ctx : BusinessOfferChoiceContext}
    (hctx : Business.buildBusinessOfferChoiceContext rt db (some o) = .ok ctx)
    (h : Editable rt db o.pk ctx) {x : CommercialPrice} (hx : Shown rt db o.pk x) :
    db.poolCapacity rt.now (listOrderableBatchesForOffer rt db x .eur)
      + Business.unitsUnder (db.orderLines o.pk) x.pk < 10 ^ quantityDigits := by
  obtain ⟨line, db', -, hunits, hok⟩ :=
    edit_of_editable hc hfit hst hctx h hx hx.positive (le_refl _)
  have hcolumn := (quantity_of_updatePlacedOrder hok (List.mem_singleton_self line)).2
  rw [hunits] at hcolumn
  exact_mod_cast hcolumn

/-- An edit within the figures goes through when nothing moved. -/
theorem Undisturbed.editable (hc : OfferConstraints db) (hfit : ReservationsFit rt.now db)
    {o : Order} (ho : o ∈ db.orders) (hst : o.status = .placed) (hch : o.channel = .business)
    {ctx : BusinessOfferChoiceContext}
    (hctx : Business.buildBusinessOfferChoiceContext rt db (some o) = .ok ctx)
    (hactive : ∀ a ∈ db.allocations, reservedOf o.pk a = true → a.isActive rt.now = true)
    (h : Undisturbed rt db o.pk) : Editable rt db o.pk ctx := by
  intro rt' hdate hnow inputs lines user hresolve hne hwithin
  have hlines := offerLine_of_resolved hresolve
  -- every line asked for is for an offer that is shown, within its figure
  have hshown : ∀ line ∈ lines, Shown rt db o.pk line.commercialOffer ∧ line.quantityInUnits
      ≤ db.poolCapacity rt.now (listOrderableBatchesForOffer rt db line.commercialOffer .eur)
        + Business.unitsUnder (db.orderLines o.pk) line.commercialOffer.pk := by
    intro line hline
    have hle := hwithin line hline
    have hpos := (hlines line hline).quantity
    unfold Dict.getD at hle
    cases hget : ctx.availableUnitsByOfferId.get? line.commercialOffer.pk with
    | none =>
      rw [hget, Option.getD_none] at hle
      omega
    | some n =>
      obtain ⟨x, hx, hpk, rfl⟩ := (figure_iff hc hfit hst hctx).mp hget
      obtain rfl : x = line.commercialOffer := Table.eq_of_pk_eq (t := db.commercialPrices)
        hx.mem (hlines line hline).known hpk
      rw [hget, Option.getD_some] at hle
      exact ⟨hx, hle⟩
  obtain ⟨first, hfirst⟩ := List.exists_mem_of_ne_nil _ hne
  have hlater : ∀ batches, (deleteReservationsForOrder db o.pk).poolCapacity rt.now batches
      ≤ (deleteReservationsForOrder db o.pk).poolCapacity rt'.now batches :=
    poolCapacity_mono rfl (fun b => Db.activeReserved_anti hnow _ b)
  have hcolumn : ∀ line ∈ lines, line.quantityInUnits < 10 ^ quantityDigits := by
    intro line hline
    obtain ⟨hx, hle⟩ := hshown line hline
    exact lt_of_le_of_lt hle (by exact_mod_cast h.column _ hx)
  obtain ⟨db', hok⟩ : ∃ db', SwedeSweets.updatePlacedOrder rt' db o.pk lines
      clearOrderReservationsBeforeLineReplacement (prepareBusinessOrderForPlacement rt') user
        = .ok db' := updatePlacedOrder_returns hc ho hst hch
    (h.oneLine ⟨_, (hshown first hfirst).1⟩) hne hlines hcolumn
    (resolveBusinessOfferLines_resolved hresolve).distinct
    (fun l hl line hline hoffer => h.product _ (hshown line hline).1 l hl hoffer.symm)
    (fun line hline => by
      obtain ⟨hx, hle⟩ := hshown line hline
      have hcap := hlater (listOrderableBatchesForOffer rt db line.commercialOffer .eur)
      rw [poolCapacity_cleared hfit hactive, ← h.held _ hx] at hcap
      rw [pool_of_today hdate]
      omega)
  refine ⟨db', ?_⟩
  unfold OpsPortal.updatePlacedOrder
  rw [bind_eq_ok]
  exact ⟨lines, hresolve, hok⟩

namespace Shop

/-- An order for five units. -/
def fiveOrdered : List (Runtime × Op) :=
  opening ++ [(runtime 1, .createOrder 7 [⟨5, .stock, some 1, none⟩] none)]

/-- The batch gets a business offer of its own. -/
def batchOffered : List (Runtime × Op) :=
  fiveOrdered ++
  [ (runtime 2, .catalog products
      ⟨[businessOffer, retailOffer,
        ⟨3, 1, some 1, .business, "", true, [⟨.eur, 900, none, by decide⟩]⟩], 4, by decide, by decide⟩
      areas) ]

/-- The form for the first order. -/
def editForm (s : State) : Result BusinessOfferChoiceContext :=
  Business.buildBusinessOfferChoiceContext (runtime 3) s.db (s.db.orders.get? 1)

/-- What the form shows for an offer. -/
def figure (s : State) (offerId : ℕ) : Option ℤ :=
  (editForm s).toOption.bind (fun ctx => ctx.availableUnitsByOfferId.get? offerId)

/-- An edit that asks for what the first order has. -/
def noOpEdit (s : State) : Result Db :=
  OpsPortal.updatePlacedOrder (runtime 3) s.db 1 [⟨1, 5, .stock⟩] none

/-- The example's offers fit together. -/
theorem fiveOrdered_offers : OfferConstraints (State.init.after fiveOrdered).db where
  uniqueProductPrice := opening_offers.uniqueProductPrice
  uniqueBatchPrice := opening_offers.uniqueBatchPrice
  batchProduct := opening_offers.batchProduct

end Shop

end SwedeSweets
