import SwedeSweets.Concurrency.LockOrder

namespace SwedeSweets

open Relational Fallible ReadCommitted

/-!
# The order transactions keep to their routes

`orderLocking` says which rows belong to which call: an order, its checkout, payment attempts
and allocations belong to the one call that is for the order, and the batches are shared.  One
lemma per transaction (`walks_…Tx`) goes through its statements; `walks_orderTx` collects them.
-/

/-! ### Whose rows are whose -/

/-- The rows that belong to the order `k`. -/
def OrderRow.ofOrder (db : Db) (k : ℕ) : OrderRow → Prop
  | .order pk => pk = k
  | .checkout pk => ∃ c ∈ db.retailCheckouts, c.pk = pk ∧ c.orderId = k
  | .attempt pk => ∃ p ∈ db.paymentAttempts, p.pk = pk ∧ p.orderId = k
  | .stock (.allocation pk) => ∃ a ∈ db.allocations, a.pk = pk ∧ a.orderId = k
  | .stock (.batch _) | .stock (.product _) => False

/-- A row belongs to one order. -/
theorem OrderRow.ofOrder_inj {db : Db} {k k' : ℕ} {r : OrderRow} (h : r.ofOrder db k)
    (h' : r.ofOrder db k') : k = k' := by
  -- each kind of row names its order
  cases r with
  | order pk => exact (show pk = k from h).symm.trans h'
  | checkout pk =>
    obtain ⟨c, hc, hpk, rfl⟩ := h
    obtain ⟨c', hc', hpk', rfl⟩ := h'
    exact congrArg _ (Table.eq_of_pk_eq (t := db.retailCheckouts) hc hc' (hpk.trans hpk'.symm))
  | attempt pk =>
    obtain ⟨p, hp, hpk, rfl⟩ := h
    obtain ⟨p', hp', hpk', rfl⟩ := h'
    exact congrArg _ (Table.eq_of_pk_eq (t := db.paymentAttempts) hp hp' (hpk.trans hpk'.symm))
  | stock r =>
    cases r with
    | allocation pk =>
      obtain ⟨a, ha, hpk, rfl⟩ := h
      obtain ⟨a', ha', hpk', rfl⟩ := h'
      exact congrArg _ (Table.eq_of_pk_eq (t := db.allocations) ha ha' (hpk.trans hpk'.symm))
    | batch pk => exact h.elim
    | product pk => exact h.elim

/-- The rows that calls for different orders request: those of batches and products. -/
def OrderRow.isShared : OrderRow → Prop
  | .stock (.batch _) | .stock (.product _) => True
  | .order _ | .checkout _ | .attempt _ | .stock (.allocation _) => False

/-- A row of an order is no batch and no product. -/
theorem OrderRow.not_isShared_of_ofOrder {db : Db} {k : ℕ} {r : OrderRow} (h : r.ofOrder db k) :
    ¬ r.isShared := by
  cases r with
  | order pk => exact id
  | checkout pk => exact id
  | attempt pk => exact id
  | stock r =>
    cases r with
    | allocation pk => exact id
    | batch pk => exact h.elim
    | product pk => exact h.elim

/-- A reserving query plans to request batches and products. -/
theorem isShared_of_poolRequests {rt : Runtime} {db : Db} {taken : List ℕ} {query : BatchQuery}
    {q : Request OrderRow} (hq : q ∈ poolRequests rt db taken query) : q.row.isShared := by
  obtain ⟨b, -, hq⟩ := List.mem_flatMap.mp hq
  rcases List.mem_pair.mp hq with rfl | rfl <;> trivial

section

variable {ω : Type}

/-- The rows of the calls, where the call of worker `w` is for the order `orderOf w`. -/
def orderLocking (db : Db) (taken : List ℕ) (orderOf : ω → ℕ)
    (hdistinct : Function.Injective orderOf) (rank : OrderRow → ℕ) : Locking OrderRow Db ω where
  own w r := r.ofOrder db (orderOf w)
  shared := OrderRow.isShared
  rank := rank
  guar w := OrderGuar taken (orderOf w)
  rely w := OrderRely taken (orderOf w)
  own_inj h h' := hdistinct (OrderRow.ofOrder_inj h h')
  own_apart := OrderRow.not_isShared_of_ofOrder
  guar_refl w := OrderGuar.refl (orderOf w)
  rely_refl w := OrderRely.refl (orderOf w)
  rely_trans := OrderRely.trans
  grants hne h := ⟨h.catalog, h.spares _ (fun he => hne (hdistinct he))⟩

variable {rt : Runtime} {db₀ : Db} {taken : List ℕ} {orderOf : ω → ℕ}
  {hdistinct : Function.Injective orderOf} {rank : OrderRow → ℕ} {w : ω} {held : List OrderRow}
  {past : List (Request OrderRow)} {f : Db → Db} {d : Db} {Q : List OrderRow → (Db → Db) → Prop}

/-- Rows of one's own order may be requested at any time. -/
theorem permits_own {r : OrderRow} (h : r.ofOrder db₀ (orderOf w)) :
    (orderLocking db₀ taken orderOf hdistinct rank).Permits w held r := Or.inl h

/-- What a call finds after its own writes: the catalog it began with. -/
theorem catalog_of_keeps (hrely : OrderRely taken (orderOf w) db₀ d)
    (hkeeps : (orderLocking db₀ taken orderOf hdistinct rank).Keeps w f d) {d' : Db}
    (h : OrderRely taken (orderOf w) d d') : SameCatalog taken db₀ (f d') :=
  (hrely.trans h).catalog.trans (hkeeps d' h).catalog

/-! ### Reserving -/

/-- Reserving requests the batches and products of the pool. -/
theorem walks_reserveTx (hrt : rt.Collates) {line : OrderLine} {query : BatchQuery}
    {quantity : ℤ} {reservedUntil : Option Time} (hq : query.Stocked)
    (hline : line.orderId = orderOf w) (hrely : OrderRely taken (orderOf w) db₀ d)
    (hkeeps : (orderLocking db₀ taken orderOf hdistinct rank).Keeps w f d)
    (hclimbs : ClimbsFrom rank past (poolRequests rt db₀ taken query))
    (hheld : (orderLocking db₀ taken orderOf hdistinct rank).Follows held past) :
    (orderLocking db₀ taken orderOf hdistinct rank).Walks .stock
      (fun held' _ => (orderLocking db₀ taken orderOf hdistinct rank).Follows held'
        (past ++ poolRequests rt db₀ taken query))
      w (reserveTx rt line query quantity reservedUntil) held f d := by
  intro d₁ h₁
  obtain ⟨hpermits, hend⟩ := Locking.permitsAll_of_fulfils
    (L := orderLocking db₀ taken orderOf hdistinct rank) (w := w)
    (fun _ hq => isShared_of_poolRequests hq)
    (fulfils_pool hrt (catalog_of_keeps hrely hkeeps h₁).batches hq) hclimbs hheld
  rw [show (fun b : InventoryBatch =>
      [OrderRow.stock (.batch b.pk), OrderRow.stock (.product b.productId)])
        = fun b => [RowId.batch b.pk, .product b.productId].map OrderRow.stock from rfl,
    ← List.map_flatMap] at hpermits hend
  -- the clock, the reservations and the write request nothing more
  refine Locking.walks_lockRows (P := fun _ => True) hpermits (fun _ _ _ _ _ _ => trivial)
    (fun _ _ => trivial) ?_
  intro bs d₂ _ h₂
  refine Locking.walks_attempt (fun _ _ => fun now d₃ h₃ =>
    Locking.walks_attempt (fun xs hxs => ?_))
  refine ⟨fun d' _ hguar => hguar.trans (guar_withReservations (fun x hx => ?_)), hend⟩
  unfold planReservation at hxs
  simp only [bind_eq_ok, mapM_newAllocation_eq_ok] at hxs
  obtain ⟨-, -, -, hline'⟩ := hxs
  rw [(hline' x hx).1, hline]

/-! ### Lines -/

variable (db₀ taken orderOf hdistinct rank w Q) in
/-- Statements that request rows along a plan and go on, whatever comes next. -/
def LocksAlong (reqs : List (Request OrderRow)) (body : OrderTx → OrderTx) : Prop :=
  ∀ (k : OrderTx) (past : List (Request OrderRow)) (held : List OrderRow) (f : Db → Db) (d : Db),
    OrderRely taken (orderOf w) db₀ d →
    (orderLocking db₀ taken orderOf hdistinct rank).Keeps w f d →
    ClimbsFrom rank past reqs →
    (orderLocking db₀ taken orderOf hdistinct rank).Follows held past →
    (∀ held' f' d', OrderRely taken (orderOf w) d d' →
      (orderLocking db₀ taken orderOf hdistinct rank).Keeps w f' d' →
      (orderLocking db₀ taken orderOf hdistinct rank).Follows held' (past ++ reqs) →
      (orderLocking db₀ taken orderOf hdistinct rank).Walks id Q w k held' f' d') →
    (orderLocking db₀ taken orderOf hdistinct rank).Walks id Q w (body k) held f d

/-- A loop over lines requests the rows of one line after the other. -/
theorem LocksAlong.foldr {lines : List OrderLine} {reqs : OrderLine → List (Request OrderRow)}
    {body : OrderLine → OrderTx → OrderTx}
    (h : ∀ line ∈ lines, LocksAlong db₀ taken orderOf hdistinct rank w Q (reqs line) (body line)) :
    LocksAlong db₀ taken orderOf hdistinct rank w Q (lines.flatMap reqs)
      (fun k => lines.foldr body k) := by
  induction lines with
  | nil =>
    intro k past held f d _ hkeeps _ hheld hk
    exact hk held f d (OrderRely.refl _ d) hkeeps (by simpa using hheld)
  | cons line lines ih =>
    intro k past held f d hrely hkeeps hclimbs hheld hk
    rw [List.flatMap_cons] at hclimbs hk
    -- the rows of the first line are part of what the others come after
    obtain ⟨hfirst, hrest⟩ := climbsFrom_append.mp hclimbs
    refine h line (List.mem_cons_self ..) _ past held f d hrely hkeeps hfirst hheld ?_
    intro held' f' d' hd' hkeeps' hheld'
    refine ih (fun x hx => h x (List.mem_cons_of_mem _ hx)) k _ held' f' d' (hrely.trans hd')
      hkeeps' hrest hheld' (fun held'' f'' d'' hd'' hkeeps'' hheld'' => ?_)
    rw [List.append_assoc] at hheld''
    exact hk held'' f'' d'' (hd'.trans hd'') hkeeps'' hheld''

/-- A business line requests the rows of its offer. -/
theorem locksAlong_businessLine (hrt : rt.Collates) {line : OrderLine}
    (hline : line.orderId = orderOf w) :
    LocksAlong db₀ taken orderOf hdistinct rank w Q
      (offerRequests rt db₀ taken line.commercialOfferId) (reserveBusinessLineTx rt line) := by
  intro k past held f d hrely hkeeps hclimbs hheld hk d₁ h₁
  have hcatalog := catalog_of_keeps hrely hkeeps h₁
  refine Locking.walks_attempt (fun product _ => Locking.walks_attempt (fun offer hoffer =>
    Locking.walks_attempt (fun _ _ => ?_)))
  -- offers and products are those the call began with
  have hreqs : offerRequests rt db₀ taken line.commercialOfferId
      = poolRequests rt db₀ taken (listOrderableBatchesForOffer rt db₀ offer .eur) := by
    have hget : db₀.commercialPrices.get? line.commercialOfferId = some offer := by
      rw [← hcatalog.prices]
      exact orRaise_eq_ok.mp hoffer
    unfold offerRequests
    rw [hget]
  rw [hreqs] at hclimbs hk
  rw [listOrderableBatchesForOffer_congr hcatalog.products hcatalog.prices]
  exact Locking.walks_within (hkeeps.stable h₁)
    (walks_reserveTx hrt (stocked_offer offer .eur) hline (hrely.trans h₁) (hkeeps.stable h₁)
      hclimbs hheld)
    (fun held' f' d' hd' hkeeps' hheld' => hk held' f' d' (h₁.trans hd') hkeeps' hheld')

/-- A retail line requests the rows of the offer it was chosen for. -/
theorem locksAlong_retailLine (hrt : rt.Collates) {currency : Currency} {reservedUntil : Time}
    {line : OrderLine} (hline : line.orderId = orderOf w) :
    LocksAlong db₀ taken orderOf hdistinct rank w Q (retailRequests rt db₀ taken currency line)
      (reserveRetailLineTx rt currency reservedUntil line) := by
  intro k past held f d hrely hkeeps hclimbs hheld hk d₁ h₁
  have hcatalog := catalog_of_keeps hrely hkeeps h₁
  refine Locking.walks_attempt (fun selection hselection =>
    Locking.walks_attempt (fun offer hoffer => Locking.walks_attempt (fun product _ => ?_)))
  -- offers and products are those the call began with
  have hreqs : retailRequests rt db₀ taken currency line
      = poolRequests rt db₀ taken (listBatchesForRetailPrice rt db₀ offer currency) := by
    have hget : db₀.commercialPrices.get? selection = some offer := by
      rw [← hcatalog.prices]
      exact orRaise_eq_ok.mp hoffer
    unfold retailRequests
    rw [orRaise_eq_ok.mp hselection, Option.bind_some, hget]
  rw [hreqs] at hclimbs hk
  rw [listBatchesForRetailPrice_congr hcatalog.products hcatalog.prices]
  exact Locking.walks_within (hkeeps.stable h₁)
    (walks_reserveTx hrt (stocked_retail offer currency) hline (hrely.trans h₁) (hkeeps.stable h₁)
      hclimbs hheld)
    (fun held' f' d' hd' hkeeps' hheld' => hk held' f' d' (h₁.trans hd') hkeeps' hheld')

/-- Preparing a business order requests the rows of its offers, in the order of its lines. -/
theorem walks_prepareBusinessTx (hrt : rt.Collates) {order : Order} {offers : List ℕ} {k : OrderTx}
    (hpk : order.pk = orderOf w) (hrely : OrderRely taken (orderOf w) db₀ d)
    (hkeeps : (orderLocking db₀ taken orderOf hdistinct rank).Keeps w f d)
    (hoffers : ∀ d', OrderRely taken (orderOf w) d d' →
      ((f d').orderLines order.pk).map OrderLine.commercialOfferId = offers)
    (hclimbs : Climbs rank (offers.flatMap (offerRequests rt db₀ taken)))
    (hclear : ∀ r ∈ held, ¬ r.isShared)
    (hk : ∀ held' f' d', OrderRely taken (orderOf w) d d' →
      (orderLocking db₀ taken orderOf hdistinct rank).Keeps w f' d' →
      (orderLocking db₀ taken orderOf hdistinct rank).Walks id Q w k held' f' d') :
    (orderLocking db₀ taken orderOf hdistinct rank).Walks id Q w (prepareBusinessTx rt order k)
      held f d := by
  refine Locking.walks_attempt (fun _ _ => fun d₁ h₁ => Locking.walks_attempt (fun _ _ => ?_))
  -- the lines read are those planned for
  have hreqs : ((f d₁).orderLines order.pk).flatMap
        (fun line => offerRequests rt db₀ taken line.commercialOfferId)
      = offers.flatMap (offerRequests rt db₀ taken) := by
    rw [← hoffers d₁ h₁, List.flatMap_map]
  have hlines : LocksAlong db₀ taken orderOf hdistinct rank w Q
      (((f d₁).orderLines order.pk).flatMap
        (fun line => offerRequests rt db₀ taken line.commercialOfferId))
      (fun k => ((f d₁).orderLines order.pk).foldr (reserveBusinessLineTx rt) k) :=
    LocksAlong.foldr (fun line hline =>
      locksAlong_businessLine hrt ((Db.mem_orderLines.mp hline).2.trans hpk))
  rw [hreqs] at hlines
  exact hlines k [] held f d₁ (hrely.trans h₁) (hkeeps.stable h₁) hclimbs
    (Locking.follows_nil hclear)
    (fun held' f' d' hd' hkeeps' _ => hk held' f' d' (h₁.trans hd') hkeeps')

/-! ### Other statements -/

/-- Saving the order ends the transaction. -/
theorem walks_saveOrderTx {method : Time → Result Order}
    (h : ∀ now o, method now = .ok o → o.pk = orderOf w) :
    (orderLocking db₀ taken orderOf hdistinct rank).Walks id (fun _ _ => True) w
      (saveOrderTx method) held f d := by
  refine fun now => Locking.walks_attempt (fun o ho => ⟨fun d' _ hguar => ?_, trivial⟩)
  exact hguar.trans (guar_saveOrder (h now o ho))

/-- Statements that read what they need and write. -/
theorem walks_mutate {g : Db → Result Db} {k : OrderTx}
    (hkeeps : (orderLocking db₀ taken orderOf hdistinct rank).Keeps w f d)
    (hg : ∀ d', OrderRely taken (orderOf w) d d' → ∀ db', g (f d') = .ok db' →
      OrderGuar taken (orderOf w) (f d') db')
    (hk : ∀ f' d' db', OrderRely taken (orderOf w) d d' → g (f d') = .ok db' →
      (∀ d'' db'', g (f d'') = .ok db'' → f' d'' = db'') →
      (orderLocking db₀ taken orderOf hdistinct rank).Keeps w f' d' →
      (orderLocking db₀ taken orderOf hdistinct rank).Walks id Q w k held f' d') :
    (orderLocking db₀ taken orderOf hdistinct rank).Walks id Q w (mutate g k) held f d := by
  -- what is written keeps the guarantee, on whatever database it is committed to
  have hwrites : ∀ d', OrderRely taken (orderOf w) d d' →
      OrderGuar taken (orderOf w) (f d') (written g (f d')) := by
    intro d' hd'
    cases hd : g (f d') with
    | ok db' =>
      rw [written_of_ok hd]
      exact hg d' hd' db' hd
    | error e =>
      rw [written_of_error hd]
      exact OrderGuar.refl _ _
  refine fun d₁ h₁ => Locking.walks_attempt (fun db' hdb' =>
    ⟨fun d' hd' hguar => hguar.trans (hwrites d' (h₁.trans hd')), ?_⟩)
  refine hk _ d₁ db' h₁ hdb' (fun d'' db'' heq => ?_)
    (fun d' hd' => (hkeeps d' (h₁.trans hd')).trans (hwrites d' (h₁.trans hd')))
  exact written_of_ok heq

/-- The locked row of the call's own order is the one the call began with. -/
theorem walks_lockedOrderTx {guard : Order → Result Unit} {function : Order → OrderTx}
    (h : ∀ o d', db₀.orders.get? (orderOf w) = some o → o.pk = orderOf w →
      OrderRely taken (orderOf w) db₀ d' →
      (orderLocking db₀ taken orderOf hdistinct rank).Walks id Q w (function o)
        [.order (orderOf w)] id d') :
    (orderLocking db₀ taken orderOf hdistinct rank).Walks id Q w
      (lockedOrderTx (orderOf w) guard function) [] id db₀ := by
  refine ⟨permits_own rfl, fun d₁ h₁ => Locking.walks_attempt (fun o ho =>
    Locking.walks_attempt (fun _ _ => h o d₁ ?_ (Db.getOrder_eq_ok.mp ho).2 h₁))⟩
  rw [← h₁.spares.order]
  exact orRaise_eq_ok.mp ho

/-- An order keeps its key in a transition. -/
theorem Order.transitionTo_pk {self o : Order} {target : OrderStatus}
    (h : self.transitionTo target = .ok o) : o.pk = self.pk := by
  obtain ⟨-, rfl⟩ := Order.transitionTo_eq_ok.mp h
  rfl

/-- What is reserved for the call's own order was when the call began. -/
theorem reserved_of_rely (h : OrderRely taken (orderOf w) db₀ d) {a : Allocation}
    (ha : a ∈ d.allocations.select (reservedOf (orderOf w))) :
    ∃ a₀ ∈ db₀.allocations.select (reservedOf (orderOf w)),
      a₀.pk = a.pk ∧ a₀.batchId = a.batchId := by
  have hmem : (a.pk, a.batchId) ∈ reservedKeys db₀ (orderOf w) :=
    h.spares.reserved.subset (List.mem_map.mpr ⟨a, ha, rfl⟩)
  obtain ⟨a₀, ha₀, heq⟩ := List.mem_map.mp hmem
  exact ⟨a₀, ha₀, (Prod.mk.inj heq).1, (Prod.mk.inj heq).2⟩

/-- The allocations reserved for the call's own order are its own. -/
theorem ofOrder_of_reserved (h : OrderRely taken (orderOf w) db₀ d) {a : Allocation}
    (ha : a ∈ d.allocations.select (reservedOf (orderOf w))) :
    (OrderRow.stock (.allocation a.pk)).ofOrder db₀ (orderOf w) := by
  obtain ⟨a₀, ha₀, hpk, -⟩ := reserved_of_rely h ha
  obtain ⟨hmem, hres⟩ := Table.mem_select.mp ha₀
  exact ⟨a₀, hmem, hpk, (reservedOf_iff.mp hres).1⟩

/-- A pending attempt for the call's own order is its own. -/
theorem ofOrder_of_pending (h : OrderRely taken (orderOf w) db₀ d) {p : PaymentAttempt}
    (hp : p ∈ d.paymentAttempts.select (pendingOf (orderOf w))) :
    (OrderRow.attempt p.pk).ofOrder db₀ (orderOf w) := by
  obtain ⟨hp, hpending⟩ := Table.mem_select.mp hp
  have hown : p ∈ d.orderAttempts (orderOf w) := by
    refine Db.mem_orderAttempts.mpr ⟨hp, ?_⟩
    simpa using (Bool.and_eq_true_iff.mp hpending).1
  rw [h.spares.attempts] at hown
  obtain ⟨hp₀, hpo⟩ := Db.mem_orderAttempts.mp hown
  exact ⟨p, hp₀, rfl, hpo⟩

/-- A lock on an allocation of the order returns one that is still reserved. -/
theorem mem_of_lockedRow {k : ℕ} {r : RowId} {a : Allocation}
    (ha : a ∈ lockedRow (reservedOf k) r d) : a ∈ d.allocations.select (reservedOf k) := by
  rcases lockedRow_cases (reservedOf k) d r with hnil | ⟨x, hx, -, hq, hone⟩
  · rw [hnil] at ha
    cases ha
  · rw [hone, List.mem_singleton] at ha
    subst ha
    exact Table.mem_select.mpr ⟨hx, hq⟩

/-- Consuming requests the batches of the allocations, first in the order of packing, and then
    again. -/
theorem walks_consumeTx (hrt : rt.Collates) {user : Option ℕ}
    (hbatch : ∀ a ∈ db₀.allocations, ∃ b ∈ db₀.batches, b.pk = a.batchId)
    (htaken : (OrderCall.packOrder (orderOf w) user).TakesFrom db₀ taken)
    (hroute : Climbs rank (route rt db₀ taken (.packOrder (orderOf w) user)))
    (hrely : OrderRely taken (orderOf w) db₀ d) (hclear : ∀ r ∈ held, ¬ r.isShared) :
    (orderLocking db₀ taken orderOf hdistinct rank).Walks .stock (fun _ _ => True) w
      (consumeTx rt (orderOf w)) held id d := by
  intro d₁ h₁
  have hmem : ∀ a, a ∈ (d₁.allocations.select (reservedOf (orderOf w))).insertionSort
      (consumeOrder rt d₁) ↔ a ∈ d₁.allocations.select (reservedOf (orderOf w)) :=
    fun a => (List.perm_insertionSort _ _).mem_iff
  have hshared : ∀ q ∈ route rt db₀ taken (.packOrder (orderOf w) user), q.row.isShared := by
    intro q hq
    obtain ⟨x, -, hq⟩ := List.mem_flatMap.mp hq
    rw [List.mem_singleton.mp hq]
    trivial
  obtain ⟨hpermits, -⟩ := Locking.permitsAll_of_fulfils
    (L := orderLocking db₀ taken orderOf hdistinct rank) (w := w) hshared
    (fulfils_consumed hrt user (hrely.trans h₁) hbatch
      (fun a ha => ofOrder_of_reserved (hrely.trans h₁) ha)) hroute (Locking.follows_nil hclear)
  rw [show (fun a : Allocation =>
      [OrderRow.stock (.allocation a.pk), OrderRow.stock (.batch a.batchId)])
        = fun a => [RowId.allocation a.pk, .batch a.batchId].map OrderRow.stock from rfl,
    ← List.map_flatMap] at hpermits
  refine Locking.walks_lockRows (P := fun a =>
    ∃ a₁ ∈ d₁.allocations.select (reservedOf (orderOf w)), a₁.batchId = a.batchId) hpermits
    (fun r _ d' hd' a ha => ?_) (by simp) ?_
  · have hd' : OrderRely taken (orderOf w) d₁ d' := hd'
    obtain ⟨a₁, ha₁, -, hb⟩ := reserved_of_rely hd' (mem_of_lockedRow ha)
    exact ⟨a₁, ha₁, hb⟩
  intro as d₂ has h₂
  -- what is picked from is the batch of an allocation that was reserved
  have hkeys : ∀ key ∈ (quantityByBatchPk as).keys,
      ∃ a₁ ∈ d₁.allocations.select (reservedOf (orderOf w)), a₁.batchId = key := by
    intro key hkey
    unfold quantityByBatchPk at hkey
    rw [Dict.mem_keys_accumulate, List.map_map] at hkey
    obtain ⟨a, ha, rfl⟩ := List.mem_map.mp hkey
    exact has a ha
  refine Locking.walks_attempt (fun _ _ => fun d₃ h₃ => ?_)
  -- the batches of the picks are held already
  have hheld : ∀ r ∈ ((d₃.batches.select
      (fun b => (quantityByBatchPk as).keys.contains b.pk)).flatMap
        (fun b => [RowId.batch b.pk])).map OrderRow.stock, r.isShared
        ∧ r ∈ ((((d₁.allocations.select (reservedOf (orderOf w))).insertionSort
            (consumeOrder rt d₁)).flatMap (fun a => [RowId.allocation a.pk, .batch a.batchId])).map
              OrderRow.stock).reverse ++ held := by
    intro r hr
    obtain ⟨r', hr', rfl⟩ := List.mem_map.mp hr
    obtain ⟨b, hb, hr'⟩ := List.mem_flatMap.mp hr'
    obtain rfl := List.mem_singleton.mp hr'
    refine ⟨trivial, List.mem_append_left _ (List.mem_reverse.mpr (List.mem_map_of_mem ?_))⟩
    obtain ⟨a₁, ha₁, hbk⟩ := hkeys b.pk (List.contains_iff_mem.mp (Table.mem_select.mp hb).2)
    exact List.mem_flatMap.mpr ⟨a₁, (hmem a₁).mpr ha₁, by simp [hbk]⟩
  refine Locking.walks_lockRows (P := fun _ => True) (Locking.permitsAll_of_held hheld)
    (fun _ _ _ _ _ _ => trivial) (by simp) ?_
  intro bs d₄ _ h₄ d₅ h₅
  refine Locking.walks_attempt (fun rows hrows => ⟨fun d' hd' hguar => hguar.trans ?_, ?_⟩)
  · refine guar_savePicked hrows (fun pick hmem => ?_) hd'
    -- the call may take from every batch it has reserved on
    obtain ⟨a₁, ha₁, hb₁⟩ := hkeys pick.1 (List.mem_map_of_mem hmem)
    obtain ⟨a₀, ha₀, -, hb₀⟩ := reserved_of_rely (hrely.trans h₁) ha₁
    have hin : a₀.batchId ∈ taken := htaken a₀ ha₀
    rwa [hb₀, hb₁] at hin
  · exact Locking.walks_attempt (fun _ _ => ⟨fun d' _ hguar =>
      hguar.trans (guar_saveStatus (by simp)), trivial⟩)

/-- A query on reservations of the order locks rows of its own. -/
theorem walks_selectReserved {query : Allocation → Bool} {k : List Allocation → StockTx}
    (hquery : ∀ a, query a = true → reservedOf (orderOf w) a = true)
    (hrely : OrderRely taken (orderOf w) db₀ d) (hclear : ∀ r ∈ held, ¬ r.isShared)
    (hk : ∀ as held' d', (∀ r ∈ held', ¬ r.isShared) → OrderRely taken (orderOf w) d d' →
      (orderLocking db₀ taken orderOf hdistinct rank).Walks .stock Q w (k as) held' id d') :
    (orderLocking db₀ taken orderOf hdistinct rank).Walks .stock Q w
      (selectForUpdate query (fun _ => id) (fun a => [.allocation a.pk]) k) held id d := by
  intro d₁ h₁
  -- what is locked was reserved for the order when the call began
  have hown : ∀ r ∈ ((d₁.allocations.select query).flatMap (fun a => [RowId.allocation a.pk])).map
      OrderRow.stock, r.ofOrder db₀ (orderOf w) := by
    intro r hr
    obtain ⟨r', hr', rfl⟩ := List.mem_map.mp hr
    obtain ⟨a, ha, hr'⟩ := List.mem_flatMap.mp hr'
    obtain rfl := List.mem_singleton.mp hr'
    obtain ⟨hmem, hq⟩ := Table.mem_select.mp ha
    exact ofOrder_of_reserved (hrely.trans h₁) (Table.mem_select.mpr ⟨hmem, hquery a hq⟩)
  refine Locking.walks_lockRows (P := fun _ => True) (Locking.permitsAll_of_own hown)
    (fun _ _ _ _ _ _ => trivial) (by simp) (fun as d₂ _ h₂ => hk as _ d₂ ?_ (h₁.trans h₂))
  intro r hr
  rcases List.mem_append.mp hr with hr | hr
  · exact OrderRow.not_isShared_of_ofOrder (hown r (List.mem_reverse.mp hr))
  · exact hclear r hr

/-- Deleting the reservations requests rows of one's own. -/
theorem walks_deleteReservationsTx {k : ℕ} (hk : k = orderOf w)
    (hrely : OrderRely taken (orderOf w) db₀ d) (hclear : ∀ r ∈ held, ¬ r.isShared) :
    (orderLocking db₀ taken orderOf hdistinct rank).Walks .stock (fun held' f' =>
        (∀ r ∈ held', ¬ r.isShared) ∧ f' = fun db => deleteReservationsForOrder db k)
      w (deleteReservationsTx k) held id d := by
  subst hk
  exact walks_selectReserved (fun _ ha => ha) hrely hclear (fun _ _ _ hclear' _ =>
    ⟨fun _ _ hguar => hguar.trans guar_deleteReservations, hclear', rfl⟩)

/-- Cancelling the temporary reservations requests rows of one's own. -/
theorem walks_cancelTemporaryTx {k : ℕ} (hk : k = orderOf w)
    (hrely : OrderRely taken (orderOf w) db₀ d) (hclear : ∀ r ∈ held, ¬ r.isShared) :
    (orderLocking db₀ taken orderOf hdistinct rank).Walks .stock
      (fun held' _ => ∀ r ∈ held', ¬ r.isShared) w (cancelTemporaryTx k) held id d := by
  subst hk
  exact walks_selectReserved (fun _ ha => (Bool.and_eq_true_iff.mp ha).1) hrely hclear
    (fun _ _ _ hclear' _ => Locking.walks_attempt (fun _ _ =>
      ⟨fun _ _ hguar => hguar.trans (guar_saveStatus (by simp)), hclear'⟩))

/-! ### Transactions -/

/-- Placing locks the order, and then the rows of its lines. -/
theorem walks_placeOrderTx (hrt : rt.Collates) {user : Option ℕ}
    (hroute : Climbs rank (route rt db₀ taken (.placeOrder (orderOf w) user))) :
    (orderLocking db₀ taken orderOf hdistinct rank).Walks id (fun _ _ => True) w
      (placeOrderTx rt (orderOf w) user) [] id db₀ := by
  refine walks_lockedOrderTx (fun o d₁ _ hpk h₁ => ?_)
  refine walks_prepareBusinessTx hrt hpk h₁ (fun d' _ => OrderGuar.refl _ d') (fun d' hd' => ?_)
    hroute (by simp [OrderRow.isShared]) (fun held' f' d' _ _ => walks_saveOrderTx (fun now o' ho' => ?_))
  · rw [hpk]
    exact congrArg (List.map OrderLine.commercialOfferId) (h₁.trans hd').spares.lines
  · unfold Order.markAsPlaced at ho'
    simp only [bind_eq_ok, pure_eq_ok] at ho'
    obtain ⟨o'', hto, rfl⟩ := ho'
    exact (Order.transitionTo_pk hto).trans hpk

/-- Packing locks the order, and then its allocations and their batches. -/
theorem walks_packOrderTx (hrt : rt.Collates) {user : Option ℕ}
    (hbatch : ∀ a ∈ db₀.allocations, ∃ b ∈ db₀.batches, b.pk = a.batchId)
    (htaken : (OrderCall.packOrder (orderOf w) user).TakesFrom db₀ taken)
    (hroute : Climbs rank (route rt db₀ taken (.packOrder (orderOf w) user))) :
    (orderLocking db₀ taken orderOf hdistinct rank).Walks id (fun _ _ => True) w
      (packOrderTx rt (orderOf w) user) [] id db₀ := by
  refine walks_lockedOrderTx (fun o d₁ _ hpk h₁ => ?_)
  rw [hpk]
  refine Locking.walks_within (fun d' _ => OrderGuar.refl _ d')
    (walks_consumeTx hrt hbatch htaken hroute h₁ (by simp [OrderRow.isShared]))
    (fun held' f' d' _ _ _ => walks_saveOrderTx (fun now o' ho' => ?_))
  unfold Order.markAsPacked at ho'
  simp only [bind_eq_ok, pure_eq_ok] at ho'
  obtain ⟨o'', hto, rfl⟩ := ho'
  exact (Order.transitionTo_pk hto).trans hpk

/-- Editing locks the order and its reservations, and then the rows of its new lines. -/
theorem walks_updatePlacedOrderTx (hrt : rt.Collates) {lines : List ResolvedOrderLine}
    {user : Option ℕ}
    (hroute : Climbs rank (route rt db₀ taken (.updatePlacedOrder (orderOf w) lines user))) :
    (orderLocking db₀ taken orderOf hdistinct rank).Walks id (fun _ _ => True) w
      (updatePlacedOrderTx rt (orderOf w) lines user) [] id db₀ := by
  refine walks_lockedOrderTx (fun o d₁ hget hpk h₁ => ?_)
  refine Locking.walks_attempt (fun _ _ => Locking.walks_attempt (fun incoming hin => fun d₂ h₂ =>
    Locking.walks_attempt (fun existing hex => ?_)))
  have h₂ : OrderRely taken (orderOf w) db₀ d₂ := h₁.trans h₂
  obtain ⟨-, hasked, rfl⟩ := incomingByOfferId_eq_ok.mp hin
  have hex : existingByOfferId (d₂.orderLines o.pk) = .ok existing := hex
  have hknown := existingByOfferId_returns.mp ⟨existing, hex⟩
  obtain rfl := Inv.existingByOfferId_eq_ok hex
  refine Locking.walks_within (fun d' _ => OrderGuar.refl _ d')
    (walks_deleteReservationsTx hpk h₂ (by simp [OrderRow.isShared])) ?_
  rintro held' f' d₃ h₃ hkeeps ⟨hclear, rfl⟩
  -- whenever the lines are replaced, the order and its lines are those read above
  have hlines : ∀ d', OrderRely taken (orderOf w) d₃ d' →
      (deleteReservationsForOrder d' o.pk).orderLines o.pk = d₂.orderLines o.pk := by
    intro d' hd'
    rw [hpk]
    exact (OrderRely.trans h₃ hd').spares.lines
  have hmem : ∀ d', OrderRely taken (orderOf w) d₃ d' →
      o ∈ (deleteReservationsForOrder d' o.pk).orders := by
    intro d' hd'
    have hget' : d'.orders.get? (orderOf w) = some o := by
      rw [((h₂.trans h₃).trans hd').spares.order, hget]
    exact (Table.get?_eq_some.mp hget').1
  refine walks_mutate hkeeps (fun d' hd' db' hdb' => ?_) (fun f' d₄ db₄ h₄ hdb₄ hf' hkeeps' => ?_)
  · rw [← hpk]
    refine guar_replaceLines (hmem d' hd') (fun e he => ?_) hdb'
    obtain ⟨l, hl, rfl⟩ := List.mem_map.mp he
    rw [hlines d' hd']
    exact hl
  · refine walks_prepareBusinessTx hrt hpk ((h₂.trans h₃).trans h₄) hkeeps' (fun d' hd' => ?_)
      hroute hclear (fun held'' f'' d'' _ _ => walks_saveOrderTx (fun now o' ho' => ?_))
    · obtain ⟨db', hdb'⟩ := replaceLines_of_ok hdb₄
      rw [hf' d' db' hdb']
      rw [← hlines d' (OrderRely.trans h₄ hd')] at hdb' hknown
      rw [offers_edited hknown hasked hdb']
      unfold offersAfterEdit
      rw [hlines d' (OrderRely.trans h₄ hd'), hpk, ← h₂.spares.lines]
    · obtain rfl := Except.ok.inj ho'
      exact hpk

/-- Paying locks the checkout, the order and its pending attempt and reservations, and then the rows
    of its lines. -/
theorem walks_startRetailPaymentTx (hrt : rt.Collates) {checkoutPk : ℕ}
    (hcheckout : ∃ c ∈ db₀.retailCheckouts, c.pk = checkoutPk ∧ c.orderId = orderOf w)
    (hroute : Climbs rank (route rt db₀ taken (.startRetailPayment checkoutPk))) :
    (orderLocking db₀ taken orderOf hdistinct rank).Walks id (fun _ _ => True) w
      (startRetailPaymentTx rt checkoutPk) [] id db₀ := by
  refine fun now => ⟨permits_own hcheckout, fun d₁ h₁ => Locking.walks_attempt (fun c hc => ?_)⟩
  -- the checkout is the one the call began with
  have hget : db₀.retailCheckouts.get? checkoutPk = some c := by
    have hc : d₁.retailCheckouts.get? checkoutPk = some c := orRaise_eq_ok.mp hc
    rw [← (show OrderRely taken (orderOf w) db₀ d₁ from h₁).catalog.checkouts, hc]
  have hck : c.orderId = orderOf w := by
    obtain ⟨c', hc', hpk, hck⟩ := hcheckout
    have hcc : c = c' := Table.eq_of_pk_eq (t := db₀.retailCheckouts)
      (Table.get?_eq_some.mp hget).1 hc' ((Table.get?_eq_some.mp hget).2.trans hpk.symm)
    rw [hcc, hck]
  rw [hck]
  refine ⟨permits_own rfl, fun d₂ h₂ => Locking.walks_attempt (fun o ho => ?_)⟩
  have h₂ : OrderRely taken (orderOf w) db₀ d₂ := OrderRely.trans h₁ h₂
  have hpk : o.pk = orderOf w := (Db.getOrder_eq_ok.mp ho).2
  have horder : db₀.orders.get? (orderOf w) = some o := by
    rw [← h₂.spares.order]
    exact orRaise_eq_ok.mp ho
  refine Locking.walks_attempt (fun _ _ => Locking.walks_attempt (fun _ _ =>
    Locking.walks_attempt (fun _ _ => fun d₃ h₃ => ?_)))
  have h₃ : OrderRely taken (orderOf w) db₀ d₃ := h₂.trans h₃
  have hattempts : ∀ r ∈ (((d₃.paymentAttempts.select (pendingOf o.pk)).take 1).map
      (fun p => OrderRow.attempt p.pk)).map id, r.ofOrder db₀ (orderOf w) := by
    intro r hr
    rw [List.map_id] at hr
    obtain ⟨p, hp, rfl⟩ := List.mem_map.mp hr
    rw [hpk] at hp
    exact ofOrder_of_pending h₃ (List.mem_of_mem_take hp)
  refine Locking.walks_lockRows (P := fun _ => True)
    (Locking.permitsAll_of_own hattempts) (fun _ _ _ _ _ _ => trivial) (by simp)
    (fun ps d₄ _ h₄ => Locking.walks_attempt (fun _ _ => fun d₅ h₅ =>
      Locking.walks_attempt (fun _ _ => ?_)))
  have h₅ : OrderRely taken (orderOf w) db₀ d₅ := (h₃.trans h₄).trans h₅
  refine Locking.walks_within (fun d' _ => OrderGuar.refl _ d')
    (walks_cancelTemporaryTx hpk h₅ (fun r hr => ?_)) (fun held' f' d₆ h₆ hkeeps hclear => ?_)
  · rcases List.mem_append.mp hr with hr | hr
    · exact OrderRow.not_isShared_of_ofOrder (hattempts r (List.mem_reverse.mp hr))
    · rcases List.mem_pair.mp hr with rfl | rfl <;> exact id
  have hreqs : (d₅.orderLines o.pk).flatMap (retailRequests rt db₀ taken o.currency)
      = route rt db₀ taken (.startRetailPayment checkoutPk) := by
    simp only [route, hget, Option.bind_some, hck, horder]
    rw [hpk, h₅.spares.lines]
  have hlines : LocksAlong db₀ taken orderOf hdistinct rank w (fun _ _ => True)
      (route rt db₀ taken (.startRetailPayment checkoutPk))
      (fun k => (d₅.orderLines o.pk).foldr
        (reserveRetailLineTx rt o.currency (now + retailPaymentReservationWindow)) k) := by
    rw [← hreqs]
    exact LocksAlong.foldr (fun line hline =>
      locksAlong_retailLine hrt ((Db.mem_orderLines.mp hline).2.trans hpk))
  refine hlines _ [] held' f' d₆ (h₅.trans h₆) hkeeps hroute (Locking.follows_nil hclear)
    (fun held'' f'' d₇ h₇ hkeeps'' _ => ?_)
  refine ⟨permits_own hpk, fun d₈ h₈ => walks_mutate (hkeeps''.stable h₈)
    (fun d' hd' db' hdb' => ?_) (fun _ _ _ _ _ _ _ => trivial)⟩
  obtain ⟨r, hr, rfl⟩ := map_eq_ok.mp hdb'
  rw [← hpk]
  exact guar_createPaymentAttempt hr

/-- The call is for the order `k`. -/
def OrderCall.IsFor (db : Db) (k : ℕ) : OrderCall → Prop
  | .placeOrder orderPk _ => orderPk = k
  | .startRetailPayment checkoutPk => ∃ c ∈ db.retailCheckouts, c.pk = checkoutPk ∧ c.orderId = k
  | .updatePlacedOrder orderPk _ _ => orderPk = k
  | .packOrder orderPk _ => orderPk = k

/-- **Walking.** A call for an order whose route climbs requests its rows as it may. -/
theorem walks_orderTx (hrt : rt.Collates)
    (hbatch : ∀ a ∈ db₀.allocations, ∃ b ∈ db₀.batches, b.pk = a.batchId) {call : OrderCall}
    (hfor : call.IsFor db₀ (orderOf w)) (htaken : call.TakesFrom db₀ taken)
    (hroute : Climbs rank (route rt db₀ taken call)) :
    (orderLocking db₀ taken orderOf hdistinct rank).Walks id (fun _ _ => True) w (call.tx rt)
      [] id db₀ := by
  cases call with
  | placeOrder orderPk user =>
    obtain rfl : orderPk = orderOf w := hfor
    exact walks_placeOrderTx hrt hroute
  | startRetailPayment checkoutPk => exact walks_startRetailPaymentTx hrt hfor hroute
  | updatePlacedOrder orderPk lines user =>
    obtain rfl : orderPk = orderOf w := hfor
    exact walks_updatePlacedOrderTx hrt hroute
  | packOrder orderPk user =>
    obtain rfl : orderPk = orderOf w := hfor
    exact walks_packOrderTx hrt hbatch htaken hroute

end

end SwedeSweets
