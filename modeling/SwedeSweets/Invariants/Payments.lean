import SwedeSweets.Invariants.Lifecycle

namespace SwedeSweets

open Relational Fallible

/-!
# The system invariant under the retail operations

Creating a retail checkout, starting its payment, completing and failing it, binding an
attempt to a provider session, and cancelling pending attempts all keep `Inv`.  Completing
is one atomic change of three things, `Completed`: the attempt succeeds, its order is
placed, and all its reservations become durable.
-/

/-- The database after the order of a payment was placed on the stock held for it, with the
    attempt saved. -/
def Db.completed (db : Db) (now : Time) (o : Order) (attempt : PaymentAttempt) : Db :=
  ((db.promoted now o.pk).saveOrder (o.asPlaced now none)).saveAttempt attempt

/-- The database with another table of payment attempts. -/
def Db.withAttempts (db : Db) (attempts : Table PaymentAttempt) : Db :=
  { db with paymentAttempts := attempts }

/-- The database with one more payment attempt. -/
def Db.withAttempt (db : Db) (d : NewRow PaymentAttempt) : Db :=
  db.withAttempts (db.paymentAttempts.insert d)

namespace Inv

variable {now : Time} {db : Db}

/-! ### Creating a retail checkout -/

/-- A retail line has its order, its units and its unit price. -/
theorem newRetailOrderLine_eq_ok {order : Order} {line : ResolvedRetailOrderLine}
    {x : NewOrderLine} (h : newRetailOrderLine order line = .ok x) :
    x.orderId = order.pk ∧ x.quantityInUnits = line.quantity.toNat
      ∧ x.unitPriceSnapshot = some line.unitPrice := by
  unfold newRetailOrderLine at h
  simp only [bind_eq_ok, pure_eq_ok] at h
  obtain ⟨y, hy, rfl⟩ := h
  have hof := newOrderLine_of hy
  exact ⟨hof.order, hof.quantity, hof.price⟩

/-- The total of the new lines is the total computed at checkout. -/
theorem orderTotal_new {order : Order} {lines : List ResolvedRetailOrderLine}
    {xs : List NewOrderLine}
    (h : List.Forall₂ (fun l x => newRetailOrderLine order l = .ok x) lines xs) (n : ℕ) :
    ∃ t, orderTotal (Table.made n (xs.map NewOrderLine.row)) = some t
      ∧ (t : ℤ) = calculateOrderTotal lines ∧ (lines ≠ [] → 0 < t) := by
  -- By induction on the lines; each adds its price times its units.
  induction h generalizing n with
  | nil => exact ⟨0, rfl, rfl, fun hne => absurd rfl hne⟩
  | @cons l x ls xs hx _ ih =>
    obtain ⟨t, ht, hsum, -⟩ := ih (n + 1)
    obtain ⟨-, hq, hp⟩ := newRetailOrderLine_eq_ok hx
    have hqpos := x.quantity_pos
    have hprice := x.price_pos l.unitPrice hp
    have hline : (x.row.make n).lineTotal = some (l.unitPrice * x.quantityInUnits) := by
      show x.unitPriceSnapshot.map _ = _
      rw [hp]; rfl
    refine ⟨l.unitPrice * x.quantityInUnits + t, ?_, ?_, fun _ => ?_⟩
    · simp only [List.map_cons, Table.made, orderTotal, hline, ht]
      rfl
    · have hql : (x.quantityInUnits : ℤ) = l.quantity := by rw [hq]; omega
      unfold calculateOrderTotal at hsum ⊢
      rw [List.map_cons, List.sum_cons, ← hsum, ResolvedRetailOrderLine.lineTotal, ← hql]
      push_cast
      rfl
    · exact Nat.add_pos_left (Nat.mul_pos hprice hqpos) t

/-- A new retail draft whose lines have a positive total within the maximum. -/
theorem createPending {rt : Runtime} {db' : Db} {buyer : AnonymousBuyerInput}
    {lines : List RetailOrderLineInput} (h : Inv now db)
    (hok : createPendingRetailOrder rt db buyer lines = .ok db') :
    Inv now db' ∧ Quiet db db' := by
  unfold createPendingRetailOrder validateRetailLines at hok
  simp only [bind_eq_ok, require_eq_ok, exists_const, pure_eq_ok] at hok
  obtain ⟨-, -, ⟨hne, -, -⟩, resolved, hres, -, -, htotal, -, -, ⟨db₁, o⟩, hins, xs, hxs, rfl⟩ := hok
  have heq := insertOrder_eq_ok hins
  rw [Prod.mk.injEq] at heq
  obtain ⟨rfl, rfl⟩ := heq
  have hall := forall₂_of_mapM hxs
  have hresolved : resolved ≠ [] := by
    rintro rfl
    have hlen := (forall₂_of_mapM hres).length_eq
    exact hne (List.length_eq_zero_iff.mp hlen)
  have horder : ∀ x ∈ xs, x.orderId = db.orders.next := by
    intro x hx
    obtain ⟨l, -, hl⟩ := exists_of_mem_mapM hxs hx
    exact (newRetailOrderLine_eq_ok hl).1
  obtain ⟨hlines, hallocs, hattempts⟩ := h.references.fresh fresh_next
  obtain ⟨t, ht, hsum, hpos⟩ := orderTotal_new hall db.lines.next
  have hmax : t ≤ maxRetailOrderTotal := Int.ofNat_le.mp (hsum ▸ htotal)
  -- The new order has the new lines and no others.
  have hnewlines : (db.lines.insertAll (xs.map NewOrderLine.row)).select
      (fun l => l.orderId = db.orders.next)
      = Table.made db.lines.next (xs.map NewOrderLine.row) := by
    have hold : db.lines.select (fun l => l.orderId = db.orders.next) = [] := hlines
    refine (Table.select_insertAll_of (fun l hl => ?_)).trans (by rw [hold, List.nil_append])
    obtain ⟨x, hx, m, rfl⟩ := Table.mem_made_map hl
    exact decide_eq_true (horder x hx)
  refine ⟨?_, Quiet.frame rfl rfl rfl⟩
  have htouch : Touches db.orders.next db
      { db with
        orders := db.orders.insert (newOrder rt .retail .eur none)
        lines := db.lines.insertAll (xs.map NewOrderLine.row) } :=
    (Touches.insertOrder rfl).trans (Touches.insertLines horder
      ⟨_, Table.mem_insert.mpr (Or.inr rfl), rfl⟩)
  refine h.ofTouches (k := db.orders.next) ⟨htouch.order, htouch.lines, htouch.allocations,
    htouch.attempts, fun hr => ?_⟩ (h.stock.frame rfl rfl) ?_
  · obtain ⟨h₁, h₂, h₃⟩ := htouch.references hr
    exact ⟨h₁, h₂, h₃⟩
  intro o ho hpk
  have heq := mem_insertOrder ho hpk
  subst heq
  constructor
  · show Drafted .retail _ (db.orderAllocations db.orders.next)
    rw [hallocs]
    exact ⟨fun _ => rfl, fun a ha => (List.not_mem_nil ha).elim,
      Or.inl (fun a ha => (List.not_mem_nil ha).elim)⟩
  · show PaymentOk _ ((db.lines.insertAll (xs.map NewOrderLine.row)).select
      (fun l => l.orderId = db.orders.next)) _ (db.orderAttempts db.orders.next)
    rw [hattempts, hnewlines]
    exact {
      onePending := fun p hp => (List.not_mem_nil hp).elim
      oneSucceeded := fun p hp => (List.not_mem_nil hp).elim
      paid := fun _ hs => by rcases hs with hs | hs | hs <;> cases hs
      unpaid := fun _ p hp => (List.not_mem_nil hp).elim
      amount := fun p hp => (List.not_mem_nil hp).elim
      retail := fun p hp => (List.not_mem_nil hp).elim
      total := fun _ => ⟨t, ht, hpos hresolved, hmax⟩
      held := fun _ hp => by obtain ⟨p, hp, -⟩ := hp; exact (List.not_mem_nil hp).elim }

/-! ### Starting a payment -/

/-- A retail line is reserved until the deadline. -/
theorem reserveRetailLine_reserves (rt : Runtime) (currency : Currency) (deadline : Time) :
    ReservesLine rt (some deadline) (reserveRetailLine rt currency deadline) := by
  intro db line db' h
  unfold reserveRetailLine at h
  simp only [bind_eq_ok, mapError_eq_ok] at h
  obtain ⟨selection, -, offer, -, product, -, h⟩ := h
  exact ⟨_, fun b hb => (isOrderable_iff.mp (isOrderable_of_retail hb)).1, h⟩

/-- Cancelling the temporary reservations of a draft leaves it nothing reserved. -/
theorem without_reserved_of_cancelTemporary {channel : Channel} {ls : List OrderLine} {k : ℕ}
    {as : List Allocation} (hk : ∀ a ∈ as, a.orderId = k) (h : Drafted channel ls as) :
    Without .reserved (as.map (fun a => if temporaryOf k a
      then (setStatus .cancelled).apply a else a)) := by
  intro a ha hst
  obtain ⟨x, hx, rfl⟩ := List.mem_map.mp ha
  by_cases hp : temporaryOf k x = true
  · rw [if_pos hp] at hst
    cases hst
  · rw [if_neg hp] at hst
    rcases h.held with hnone | ⟨u, hheld⟩
    · exact hnone x hx hst
    · refine hp (temporaryOf_iff.mpr ⟨reservedOf_iff.mpr ⟨hk x hx, hst⟩, ?_⟩)
      rw [hheld.deadline x hx hst]
      exact Option.some_ne_none u

/-- Releasing an order's temporary holds touches that order. -/
theorem touches_releasedTemporary (db : Db) (k : ℕ) : Touches k db (db.releasedTemporary k) :=
  Touches.modifyAllocations
    (fun _ _ ha => (reservedOf_iff.mp (temporaryOf_iff.mp ha).1).1) (setStatus_keeps _)

/-- The allocations of an order after its temporary holds are released. -/
theorem orderAllocations_releasedTemporary (db : Db) (k : ℕ) :
    (db.releasedTemporary k).orderAllocations k = (db.orderAllocations k).map
      (fun a => if temporaryOf k a then (setStatus .cancelled).apply a else a) :=
  orderAllocations_modify (fun _ => rfl) k

/-- Reserving the lines of a draft that holds nothing makes it hold them to the deadline. -/
theorem held_of_reservations {db : Db} {ls : List OrderLine} {as : List Allocation}
    {xs : List NewAllocation} {n : ℕ} {deadline : Time} (hres : Without .reserved as)
    (hxs : Reservations now db ls (some deadline) xs) :
    Held ls (as ++ rowsOf n xs) deadline where
  deadline a ha hst := by
    rcases List.mem_append.mp ha with ha | ha
    · exact absurd hst (hres a ha)
    · obtain ⟨x, hx, m, rfl⟩ := mem_rowsOf ha
      exact (hxs.ofLines x hx).2
  covers l hl := by
    rw [unitsOf_append, unitsOf_eq_zero hres, unitsOf_rowsOf, Nat.zero_add]
    exact hxs.exact l hl

/-- A line that is covered has a reserved allocation. -/
theorem exists_reserved_of_covers {ls : List OrderLine} {as : List Allocation}
    (hne : ls ≠ []) (h : Covers .reserved ls as) : ∃ a ∈ as, a.status = .reserved := by
  obtain ⟨l, hl⟩ := List.exists_mem_of_ne_nil _ hne
  have hpos := l.quantity_pos
  by_contra hnone
  push Not at hnone
  have hzero := unitsOf_eq_zero hnone l.pk
  have hcov := h l hl
  omega

/-- A payment attempt is for the order's total, and no other one is PENDING. -/
theorem createPaymentAttempt_eq_ok {db : Db} {k : ℕ} {r : Db × PaymentAttempt}
    (h : createPaymentAttempt db k = .ok r) :
    ∃ o ∈ db.orders, o.pk = k ∧ ∃ amount, ∃ hpos : 0 < amount,
      orderTotal (db.orderLines k) = some amount ∧
      (∀ p ∈ db.orderAttempts k, p.status ≠ .pending) ∧
      r = ({ db with paymentAttempts := db.paymentAttempts.insert (newAttempt o amount hpos) },
        (newAttempt o amount hpos).make db.paymentAttempts.next) := by
  unfold createPaymentAttempt at h
  simp only [bind_eq_ok, Db.getOrder_eq_ok, orRaise_eq_ok] at h
  obtain ⟨o, ⟨ho, rfl⟩, amount, hamount, h⟩ := h
  -- An order total of nothing fails the table's check.
  by_cases hpos : 0 < amount
  · rw [dif_pos hpos] at h
    simp only [bind_eq_ok, require_eq_ok, requireNumeric_eq_ok, exists_const, pure_eq_ok] at h
    obtain ⟨hnone, -, rfl⟩ := h
    refine ⟨o, ho, rfl, amount, hpos, hamount, fun p hp hst => ?_, rfl⟩
    obtain ⟨hp, hpo⟩ := Db.mem_orderAttempts.mp hp
    have hmem : p ∈ db.paymentAttempts.select (pendingOf o.pk) :=
      Table.mem_select.mpr ⟨hp, by simp [pendingOf, hpo, hst]⟩
    rw [hnone] at hmem
    cases hmem
  · rw [dif_neg hpos] at h
    cases h

/-- The payment window has not expired when it opens. -/
theorem unexpired_window (now : Time) :
    Unexpired now (some (now + retailPaymentReservationWindow)) := by
  intro u hu
  cases hu
  exact Nat.lt_add_of_pos_right (by decide)

/-- Starting a payment lets the old hold of its DRAFT order go, holds all its lines anew, and
    inserts one PENDING attempt over its total. -/
theorem startRetailPayment_eq_ok {rt : Runtime} {db : Db} {checkoutPk : ℕ}
    {r : Db × PaymentAttempt} (h : startRetailPayment rt db checkoutPk = .ok r) :
    ∃ o ∈ db.orders, o.channel = .retail ∧ o.status = .draft ∧ db.orderLines o.pk ≠ [] ∧
      ∃ xs, Reservations rt.now (db.releasedTemporary o.pk) (db.orderLines o.pk)
          (some (rt.now + retailPaymentReservationWindow)) xs ∧
        ∃ amount, ∃ hpos : 0 < amount, orderTotal (db.orderLines o.pk) = some amount ∧
          (∀ p ∈ db.orderAttempts o.pk, p.status ≠ .pending) ∧
          r = (((db.releasedTemporary o.pk).withReservations xs).withAttempt
              (newAttempt o amount hpos),
            (newAttempt o amount hpos).make db.paymentAttempts.next) := by
  unfold startRetailPayment at h
  simp only [bind_eq_ok, orRaise_eq_ok, Db.getOrder_eq_ok, require_eq_ok, exists_const,
    cancelTemporaryReservationsForOrder_eq, Except.ok.injEq, exists_eq_left'] at h
  obtain ⟨checkout, -, o, ⟨ho, -⟩, -, hch, hst, -, hne, db₂, hloop, hattempt⟩ := h
  obtain ⟨xs, rfl, hxs⟩ := reserveLines
    (reserveRetailLine_reserves rt o.currency (rt.now + retailPaymentReservationWindow))
    (unexpired_window rt.now) (db.lines.select_nodup_pk _) hloop
  -- The attempt is made for the order that was locked.
  obtain ⟨o', ho', hpk', amount, hpos, hamount, hnone, rfl⟩ := createPaymentAttempt_eq_ok hattempt
  have hoo : o' = o := Table.eq_of_pk_eq (t := db.orders) ho' ho hpk'
  subst hoo
  exact ⟨o', ho, hch, hst, hne, xs, hxs, amount, hpos, hamount, hnone, rfl⟩

/-- A draft that let its hold go neither holds nor has given up any units. -/
theorem without_of_releasedTemporary {channel : Channel} {ls : List OrderLine} {k : ℕ}
    (h : Drafted channel ls (db.orderAllocations k)) :
    Without .reserved ((db.releasedTemporary k).orderAllocations k)
      ∧ Without .consumed ((db.releasedTemporary k).orderAllocations k) := by
  rw [orderAllocations_releasedTemporary]
  refine ⟨without_reserved_of_cancelTemporary
    (fun a ha => (Db.mem_orderAllocations.mp ha).2) h, fun a ha hst => ?_⟩
  obtain ⟨x, hx, rfl⟩ := List.mem_map.mp ha
  by_cases hp : temporaryOf k x = true
  · rw [if_pos hp] at hst
    cases hst
  · rw [if_neg hp] at hst
    exact h.unpicked x hx hst

/-- Drafts that hold their lines anew are as drafts should be. -/
theorem drafted_of_reservations {ls : List OrderLine} {as : List Allocation}
    {xs : List NewAllocation} {n : ℕ} {deadline : Time} (hres : Without .reserved as)
    (hcon : Without .consumed as) (hxs : Reservations now db ls (some deadline) xs) :
    Drafted .retail ls (as ++ rowsOf n xs) := by
  refine ⟨fun hc => (by cases hc), fun a ha => ?_, Or.inr ⟨_, held_of_reservations hres hxs⟩⟩
  rcases List.mem_append.mp ha with ha | ha
  · exact hcon a ha
  · obtain ⟨y, -, m, rfl⟩ := mem_rowsOf ha
    exact fun hc => by cases hc

/-- A PENDING attempt over the total of a draft that holds its lines, when no other is pending. -/
theorem paymentOk_attempted {o : Order} {ls : List OrderLine} {as as' : List Allocation}
    {ps ps' : List PaymentAttempt} (h : PaymentOk o ls as ps) (new : PaymentAttempt)
    (hch : o.channel = .retail) (hst : o.status = .draft)
    (hnone : ∀ p ∈ ps, p.status ≠ .pending) (hnew : new.status = .pending)
    (hamount : orderTotal ls = some new.amount) (hheld : ∃ a ∈ as', a.status = .reserved)
    (hps : ∀ p ∈ ps', p ∈ ps ∨ p = new) : PaymentOk o ls as' ps' where
  onePending p hp q hq hpp hqp := by
    rcases hps p hp with hp | rfl
    · exact absurd hpp (hnone p hp)
    · rcases hps q hq with hq | rfl
      · exact absurd hqp (hnone q hq)
      · rfl
  oneSucceeded p hp q hq hpp hqp := by
    rcases hps p hp with hp | rfl
    · exact absurd hpp (h.unpaid hst p hp)
    · rw [hnew] at hpp
      cases hpp
  paid _ hsold := by
    rw [hst] at hsold
    rcases hsold with hs | hs | hs <;> cases hs
  unpaid _ p hp := by
    rcases hps p hp with hp | rfl
    · exact h.unpaid hst p hp
    · rw [hnew]
      exact fun hc => by cases hc
  amount p hp := by
    rcases hps p hp with hp | rfl
    · exact h.amount p hp
    · exact hamount
  retail _ _ := hch
  total := h.total
  held _ _ := hheld

/-- Starting a payment keeps the invariant and takes nothing out of stock. -/
theorem start {rt : Runtime} {checkoutPk : ℕ} {r : Db × PaymentAttempt} (h : Inv rt.now db)
    (hok : startRetailPayment rt db checkoutPk = .ok r) : Inv rt.now r.1 ∧ StockQuiet db r.1 := by
  obtain ⟨o, ho, hch, hst, hne, xs, hxs, amount, hpos, hamount, hnone, rfl⟩ :=
    startRetailPayment_eq_ok hok
  obtain ⟨hstock, hpay⟩ := h.orders o ho
  have hdraft : Drafted o.channel (db.orderLines o.pk) (db.orderAllocations o.pk) := by
    unfold StockOk at hstock
    rwa [hst] at hstock
  obtain ⟨hfree, hunpicked⟩ := without_of_releasedTemporary hdraft
  have hlines : (db.releasedTemporary o.pk).orderLines o.pk = db.orderLines o.pk := rfl
  have hxs' : Reservations rt.now (db.releasedTemporary o.pk)
      ((db.releasedTemporary o.pk).orderLines o.pk)
      (some (rt.now + retailPaymentReservationWindow)) xs := hxs
  have hstock₂ : NoOversell rt.now ((db.releasedTemporary o.pk).withReservations xs) :=
    (h.stock.setStatus (by simp)).reserve (unexpired_window rt.now) hxs
  -- The order's allocations: the released ones, then the new holds.
  have hview : ((db.releasedTemporary o.pk).withReservations xs).orderAllocations o.pk
      = (db.releasedTemporary o.pk).orderAllocations o.pk
        ++ rowsOf (db.releasedTemporary o.pk).allocations.next xs :=
    orderAllocations_reservations hxs'
  have hheld := held_of_reservations (n := (db.releasedTemporary o.pk).allocations.next) hfree hxs
  refine ⟨?_, ?_⟩
  · refine h.ofTouches (k := o.pk)
      (((touches_releasedTemporary db o.pk).trans (touches_reservations hxs')).trans
        (Touches.insertAttempt (fun n => rfl) ⟨o, ho, rfl⟩))
      (hstock₂.frame rfl rfl) (fun x hx hpk => ?_)
    obtain rfl : x = o := Table.eq_of_pk_eq (t := db.orders) hx ho hpk
    constructor
    · show StockOk x (db.orderLines x.pk)
        (((db.releasedTemporary x.pk).withReservations xs).orderAllocations x.pk)
      unfold StockOk
      rw [hst, hch, hview]
      exact drafted_of_reservations hfree hunpicked hxs
    · refine paymentOk_attempted hpay ((newAttempt x amount hpos).make db.paymentAttempts.next)
        hch hst hnone rfl hamount ?_ (fun p hp => ?_)
      · show ∃ a ∈ ((db.releasedTemporary x.pk).withReservations xs).orderAllocations x.pk, _
        rw [hview]
        exact exists_reserved_of_covers hne hheld.covers
      · obtain ⟨hp, hpk⟩ := Db.mem_orderAttempts.mp hp
        rcases Table.mem_insert.mp hp with hp | rfl
        · exact Or.inl (Db.mem_orderAttempts.mpr ⟨hp, hpk⟩)
        · exact Or.inr rfl
  · have hcancelled : Quiet db (db.releasedTemporary o.pk) := Quiet.modify (fun a _ hc => by cases hc)
    have hreserved : Quiet (db.releasedTemporary o.pk)
        ((db.releasedTemporary o.pk).withReservations xs) := Quiet.withReservations
    have hquiet := hcancelled.trans hreserved
    exact ⟨hquiet.batches, hquiet.consumed⟩

/-! ### Settling a payment -/

/-- A provider transaction id that may be stored: none, or a text that is not blank and whose
    column holds it once it is stripped. -/
def ValidTransactionId (transactionId : Option String) : Prop :=
  ∀ t, transactionId = some t →
    Text.strip t ≠ "" ∧ FitsColumn maxProviderIdLength (Text.strip t)

/-- The rewrite of an attempt leaves everything but its status and transaction id. -/
theorem succeeded_eq_ok {p p' : PaymentAttempt} {transactionId : Option String}
    (h : p.succeeded transactionId = .ok p') :
    p' = { p with status := .succeeded, providerTransactionId := p'.providerTransactionId } := by
  unfold PaymentAttempt.succeeded at h
  cases transactionId with
  | none =>
    simp only [pure_eq_ok] at h
    rw [← h]
  | some t =>
    simp only [bind_eq_ok, require_eq_ok, exists_const, pure_eq_ok] at h
    obtain ⟨-, -, -, rfl⟩ := h
    rfl

/-- The stored transaction id is the stripped one, and not blank. -/
theorem transactionId_of_succeeded {p p' : PaymentAttempt} {t : String}
    (h : p.succeeded (some t) = .ok p') :
    p'.providerTransactionId = Text.strip t ∧ Text.strip t ≠ "" := by
  unfold PaymentAttempt.succeeded at h
  simp only [bind_eq_ok, require_eq_ok, exists_const, pure_eq_ok] at h
  obtain ⟨hne, -, -, rfl⟩ := h
  exact ⟨rfl, hne⟩

/-- An attempt can succeed iff its transaction id may be stored. -/
theorem exists_succeeded_iff (p : PaymentAttempt) {transactionId : Option String} :
    (∃ p', p.succeeded transactionId = .ok p') ↔ ValidTransactionId transactionId := by
  unfold ValidTransactionId PaymentAttempt.succeeded
  cases transactionId with
  | none => simp
  | some t =>
    simp only [bind_eq_ok, require_eq_ok, requireFits_eq_ok, exists_const, pure_eq_ok]
    constructor
    · rintro ⟨-, hblank, hfits, -⟩ t' ht'
      cases ht'
      exact ⟨hblank, hfits⟩
    · intro h
      obtain ⟨hblank, hfits⟩ := h t rfl
      exact ⟨_, hblank, hfits, rfl⟩

/-- A valid transaction id is one that an attempt takes. -/
theorem exists_succeeded (p : PaymentAttempt) {transactionId : Option String}
    (h : ValidTransactionId transactionId) : ∃ p', p.succeeded transactionId = .ok p' :=
  (exists_succeeded_iff p).mpr h

/-- **Complete.** Completing succeeds iff the attempt is PENDING, its retail order is DRAFT
    with active reservations and no durable one, and the transaction id may be stored. -/
theorem completeRetailPayment_eq_ok {rt : Runtime} {db db' : Db} {attemptPk : ℕ}
    {transactionId : Option String} :
    completeRetailPayment rt db attemptPk transactionId = .ok db' ↔
      ∃ p ∈ db.paymentAttempts, p.pk = attemptPk ∧ p.status = .pending ∧
        ∃ o ∈ db.orders, o.pk = p.orderId ∧ o.channel = .retail ∧ o.status = .draft ∧
          (∃ a ∈ db.allocations, activeOf rt.now o.pk a = true) ∧
          (∀ a ∈ db.allocations, reservedOf o.pk a = true → a.reservedUntil ≠ none) ∧
          ∃ p', p.succeeded transactionId = .ok p' ∧
            db' = db.completed rt.now o p' := by
  unfold completeRetailPayment makeOrderReservationsPermanentBeforePlacement
    markPaymentAttemptSucceeded
  simp only [bind_eq_ok, Db.getAttempt_eq_ok, Db.getOrder_eq_ok, require_eq_ok, exists_const,
    placeOrder_eq_ok, mapError_eq_ok, makeReservationsPermanentForOrder_eq_ok, pure_eq_ok]
  -- The attempt and the order are read more than once; it is one row each time.
  constructor
  · rintro ⟨p, ⟨hp, rfl⟩, o, ⟨ho, hpk⟩, q, ⟨hq, hqp⟩, -, hpend, hch, db₂,
      ⟨o', ho', hoo, hst, db₁, ⟨⟨a, ha, har, haa⟩, hnull, rfl⟩, rfl⟩, q', ⟨hq', hqq⟩, -, p', hsucc,
      rfl⟩
    have hqp' : q = p := Table.eq_of_pk_eq (t := db.paymentAttempts) hq hp hqp
    subst hqp'
    have hoo' : o' = o := Table.eq_of_pk_eq (t := db.orders) ho' ho hoo
    subst hoo'
    have hqq' : q' = q := Table.eq_of_pk_eq (t := db.paymentAttempts) hq' hp hqq
    subst hqq'
    refine ⟨q', hq', rfl, hpend, o', ho, hpk, hch, hst, ⟨a, ha, ?_⟩, hnull, p', hsucc, rfl⟩
    exact Bool.and_eq_true_iff.mpr ⟨har, haa⟩
  · rintro ⟨p, hp, rfl, hpend, o, ho, hpk, hch, hst, ⟨a, ha, hact⟩, hnull, p', hsucc, rfl⟩
    obtain ⟨har, haa⟩ := Bool.and_eq_true_iff.mp hact
    exact ⟨p, ⟨hp, rfl⟩, o, ⟨ho, hpk⟩, p, ⟨hp, rfl⟩, hpk.symm, hpend, hch, _,
      ⟨o, ho, rfl, hst, _, ⟨⟨a, ha, har, haa⟩, hnull, rfl⟩, rfl⟩, p, ⟨hp, rfl⟩, hpend, p', hsucc,
      rfl⟩

/-- **Fail.** Failing succeeds iff the attempt is PENDING and its retail order is DRAFT. -/
theorem failRetailPayment_eq_ok {db db' : Db} {attemptPk : ℕ} :
    failRetailPayment db attemptPk = .ok db' ↔
      ∃ p ∈ db.paymentAttempts, p.pk = attemptPk ∧ p.status = .pending ∧
        ∃ o ∈ db.orders, o.pk = p.orderId ∧ o.channel = .retail ∧ o.status = .draft ∧
          db' = (db.releasedTemporary o.pk).saveAttempt { p with status := .failed } := by
  unfold failRetailPayment markPaymentAttemptFailed
  simp only [bind_eq_ok, Db.getAttempt_eq_ok, Db.getOrder_eq_ok, require_eq_ok, exists_const,
    cancelTemporaryReservationsForOrder_eq, Except.ok.injEq, exists_eq_left', pure_eq_ok]
  constructor
  · rintro ⟨p, ⟨hp, rfl⟩, o, ⟨ho, hpk⟩, q, ⟨hq, hqp⟩, -, hpend, hch, hst, q', ⟨hq', hqq⟩, -, rfl⟩
    have hqp' : q = p := Table.eq_of_pk_eq (t := db.paymentAttempts) hq hp hqp
    subst hqp'
    have hqq' : q' = q := Table.eq_of_pk_eq (t := db.paymentAttempts) hq' hp hqq
    subst hqq'
    exact ⟨q', hp, rfl, hpend, o, ho, hpk, hch, hst, rfl⟩
  · rintro ⟨p, hp, rfl, hpend, o, ho, hpk, hch, hst, rfl⟩
    exact ⟨p, ⟨hp, rfl⟩, o, ⟨ho, hpk⟩, p, ⟨hp, rfl⟩, hpk.symm, hpend, hch, hst, p, ⟨hp, rfl⟩, hpend,
      rfl⟩

/-- The attempts of an order after one of them was saved. -/
theorem mem_orderAttempts_saveAttempt {db : Db} {p p' : PaymentAttempt} (hp : p ∈ db.paymentAttempts)
    (hpk : p'.pk = p.pk) {k : ℕ} {q : PaymentAttempt}
    (hq : q ∈ (db.saveAttempt p').orderAttempts k) :
    q = p' ∨ (q ∈ db.orderAttempts k ∧ q.pk ≠ p.pk) := by
  obtain ⟨hq, hqk⟩ := Db.mem_orderAttempts.mp hq
  rcases (Table.mem_put ⟨p, hp, hpk.symm⟩).mp hq with rfl | ⟨hq, hne⟩
  · exact Or.inl rfl
  · exact Or.inr ⟨Db.mem_orderAttempts.mpr ⟨hq, hqk⟩, fun h => hne (h.trans hpk.symm)⟩

/-- The saved attempt is one of its order. -/
theorem mem_saveAttempt_self {db : Db} {p p' : PaymentAttempt} (hp : p ∈ db.paymentAttempts)
    (hpk : p'.pk = p.pk) {k : ℕ} (hk : p'.orderId = k) :
    p' ∈ (db.saveAttempt p').orderAttempts k :=
  Db.mem_orderAttempts.mpr ⟨(Table.mem_put ⟨p, hp, hpk.symm⟩).mpr (Or.inl rfl), hk⟩

/-- A PENDING attempt of a DRAFT order comes with stock held to one deadline. -/
theorem held_of_pending {db : Db} {p : PaymentAttempt} {o : Order} (h : Inv now db)
    (hp : p ∈ db.paymentAttempts) (ho : o ∈ db.orders) (hpk : o.pk = p.orderId)
    (hst : o.status = .draft) (hpend : p.status = .pending) :
    db.orderLines o.pk ≠ [] ∧ (∃ a ∈ db.orderAllocations o.pk, a.status = .reserved) ∧
      ∃ deadline, Held (db.orderLines o.pk) (db.orderAllocations o.pk) deadline := by
  obtain ⟨hstock, hpay⟩ := h.orders o ho
  have hmem : p ∈ db.orderAttempts o.pk := Db.mem_orderAttempts.mpr ⟨hp, hpk.symm⟩
  have hdraft : Drafted o.channel (db.orderLines o.pk) (db.orderAllocations o.pk) := by
    unfold StockOk at hstock
    rwa [hst] at hstock
  obtain ⟨t, ht, htpos, -⟩ := hpay.total (hpay.retail p hmem)
  have hsome := hpay.held hst ⟨p, hmem, hpend⟩
  refine ⟨fun hnil => ?_, hsome, ?_⟩
  · rw [hnil, orderTotal, Option.some.injEq] at ht
    exact Nat.ne_of_lt htpos ht
  -- A PENDING attempt of a draft stands on a hold.
  · rcases hdraft.held with hnone | hheld
    · obtain ⟨a, ha, hres⟩ := hsome
      exact absurd hres (hnone a ha)
    · exact hheld

/-- One active reservation shows that the common deadline has not passed. -/
theorem live_of_active {now t : Time} {db : Db} {p : PaymentAttempt} {o : Order} (h : Inv now db)
    (hp : p ∈ db.paymentAttempts) (ho : o ∈ db.orders) (hpk : o.pk = p.orderId)
    (hst : o.status = .draft) (hpend : p.status = .pending)
    (hact : ∃ a ∈ db.allocations, activeOf t o.pk a = true) :
    ∃ deadline, Held (db.orderLines o.pk) (db.orderAllocations o.pk) deadline ∧ t < deadline := by
  obtain ⟨-, -, deadline, hheld⟩ := h.held_of_pending hp ho hpk hst hpend
  obtain ⟨a, ha, hact⟩ := hact
  obtain ⟨har, haa⟩ := Bool.and_eq_true_iff.mp hact
  obtain ⟨hak, hares⟩ := reservedOf_iff.mp har
  have hdl := hheld.deadline a (Db.mem_orderAllocations.mpr ⟨ha, hak⟩) hares
  refine ⟨deadline, hheld, ?_⟩
  simpa [Allocation.isActive, hares, hdl] using haa

/-- Promoting the stock held for a payment, before its deadline, secures the order. -/
theorem secured_of_promote {k : ℕ} {ls : List OrderLine} {as : List Allocation} {deadline : Time}
    (hk : ∀ a ∈ as, a.orderId = k) (hls : ls ≠ []) (hcon : Without .consumed as)
    (hheld : Held ls as deadline) (hlive : now < deadline) :
    Secured ls (as.map (fun a => if activeOf now k a then clearReservedUntil.apply a else a)) where
  lines := hls
  durable a ha hst := by
    obtain ⟨x, hx, rfl⟩ := List.mem_map.mp ha
    -- A reserved row is active, since its deadline is ahead.
    by_cases hp : activeOf now k x = true
    · rw [if_pos hp]; rfl
    · rw [if_neg hp] at hst ⊢
      refine absurd (Bool.and_eq_true_iff.mpr ⟨reservedOf_iff.mpr ⟨hk x hx, hst⟩, ?_⟩) hp
      simp [Allocation.isActive, hst, hheld.deadline x hx hst, hlive]
  unpicked a ha hst := by
    obtain ⟨x, hx, rfl⟩ := List.mem_map.mp ha
    by_cases hp : activeOf now k x = true
    · rw [if_pos hp] at hst; exact hcon x hx hst
    · rw [if_neg hp] at hst; exact hcon x hx hst
  covers l hl := by
    rw [← hheld.covers l hl]
    unfold unitsOf
    rw [List.map_map]
    refine congrArg List.sum (List.map_congr_left (fun a _ => ?_))
    by_cases hp : activeOf now k a = true <;> simp [hp, clearReservedUntil]

/-- Saving an attempt that gains no status `s` leaves at most one attempt with it. -/
theorem one_saveAttempt {db : Db} {p p' : PaymentAttempt} {k : ℕ} {s : PaymentStatus}
    (hone : ∀ q ∈ db.orderAttempts k, ∀ r ∈ db.orderAttempts k, q.status = s → r.status = s → q = r)
    (hp : p ∈ db.orderAttempts k) (hpk : p'.pk = p.pk) (hkeep : p'.status = s → p.status = s) :
    ∀ q ∈ (db.saveAttempt p').orderAttempts k, ∀ r ∈ (db.saveAttempt p').orderAttempts k,
      q.status = s → r.status = s → q = r := by
  have hpmem := (Db.mem_orderAttempts.mp hp).1
  intro q hq r hr hqs hrs
  rcases mem_orderAttempts_saveAttempt hpmem hpk hq with rfl | ⟨hq', hqne⟩
  · rcases mem_orderAttempts_saveAttempt hpmem hpk hr with rfl | ⟨hr', hrne⟩
    · rfl
    · exact absurd (congrArg PaymentAttempt.pk (hone r hr' p hp hrs (hkeep hqs))) hrne
  · rcases mem_orderAttempts_saveAttempt hpmem hpk hr with rfl | ⟨hr', -⟩
    · exact absurd (congrArg PaymentAttempt.pk (hone q hq' p hp hqs (hkeep hrs))) hqne
    · exact hone q hq' r hr' hqs hrs

/-- The payment records of an order placed by an attempt that succeeds. -/
theorem paymentOk_completed {db : Db} {o : Order} {ls : List OrderLine} {as as' : List Allocation}
    {p p' : PaymentAttempt} {placed : Order} (hpay : PaymentOk o ls as (db.orderAttempts o.pk))
    (hst : o.status = .draft) (hch : o.channel = .retail) (hp : p ∈ db.orderAttempts o.pk)
    (hpk : p'.pk = p.pk) (hpo : p'.orderId = o.pk)
    (hsucc : p'.status = .succeeded) (hamount : p'.amount = p.amount)
    (hplaced : placed.status = .placed) (hchannel : placed.channel = o.channel) :
    PaymentOk placed ls as' ((db.saveAttempt p').orderAttempts o.pk) := by
  have hpmem := (Db.mem_orderAttempts.mp hp).1
  -- `p'` is the only attempt that is new, and no other is PENDING or SUCCEEDED
  have hsplit := fun q hq => mem_orderAttempts_saveAttempt (k := o.pk) (q := q) hpmem hpk hq
  exact {
    onePending := one_saveAttempt hpay.onePending hp hpk (fun hc => by
      rw [hsucc] at hc
      cases hc)
    oneSucceeded := fun q hq r hr hqs hrs => by
      rcases hsplit q hq with rfl | ⟨hq, -⟩
      · rcases hsplit r hr with rfl | ⟨hr, -⟩
        · rfl
        · exact absurd hrs (hpay.unpaid hst r hr)
      · exact absurd hqs (hpay.unpaid hst q hq)
    paid := fun _ _ => ⟨p', mem_saveAttempt_self hpmem hpk hpo, hsucc⟩
    unpaid := fun hd => by
      rw [hplaced] at hd
      cases hd
    amount := fun q hq => by
      rcases hsplit q hq with rfl | ⟨hq, -⟩
      · rw [hpay.amount p hp, hamount]
      · exact hpay.amount q hq
    retail := fun _ _ => hchannel.trans hch
    total := fun _ => hpay.total hch
    held := fun hd => by
      rw [hplaced] at hd
      cases hd }

/-- Completing keeps the invariant and takes nothing out of stock. -/
theorem complete {rt : Runtime} {db db' : Db} {attemptPk : ℕ} {transactionId : Option String}
    (h : Inv rt.now db) (hok : completeRetailPayment rt db attemptPk transactionId = .ok db') :
    Inv rt.now db' ∧ StockQuiet db db' := by
  obtain ⟨p, hp, -, hpend, o, ho, hpk, hch, hst, hact, -, p', hsucc, rfl⟩ :=
    completeRetailPayment_eq_ok.mp hok
  obtain ⟨hstock, hpay⟩ := h.orders o ho
  obtain ⟨hne, -, -⟩ := h.held_of_pending hp ho hpk hst hpend
  obtain ⟨deadline, hheld, hlive⟩ := h.live_of_active hp ho hpk hst hpend hact
  have hdraft : Drafted o.channel (db.orderLines o.pk) (db.orderAllocations o.pk) := by
    unfold StockOk at hstock
    rwa [hst] at hstock
  have heq := succeeded_eq_ok hsucc
  have hpk' : p'.pk = p.pk := by rw [heq]
  have hpo : p'.orderId = o.pk := by rw [heq]; exact hpk.symm
  -- The order's allocations after the promotion: its active ones have no deadline.
  have hview : (db.promoted rt.now o.pk).orderAllocations o.pk = (db.orderAllocations o.pk).map
      (fun a => if activeOf rt.now o.pk a then clearReservedUntil.apply a else a) :=
    orderAllocations_modify (fun _ => rfl) o.pk
  have htouch : Touches o.pk db (db.promoted rt.now o.pk) :=
    Touches.modifyAllocations
      (fun a _ ha => (reservedOf_iff.mp (Bool.and_eq_true_iff.mp ha).1).1)
      (fun a => ⟨rfl, rfl, rfl⟩)
  have hstock₁ : NoOversell rt.now (db.promoted rt.now o.pk) :=
    h.stock.promote (fun a ha => (Bool.and_eq_true_iff.mp ha).2)
  have hquiet : Quiet db (db.promoted rt.now o.pk) :=
    Quiet.modify (fun a ha hc => by
      have hres := (reservedOf_iff.mp (Bool.and_eq_true_iff.mp ha).1).2
      have hcons : a.status = .consumed := hc
      rw [hres] at hcons
      cases hcons)
  refine ⟨?_, hquiet.batches, hquiet.consumed⟩
  have hplaced : Touches o.pk db ((db.promoted rt.now o.pk).saveOrder (o.asPlaced rt.now none)) :=
    htouch.trans (Touches.saveOrder rfl ⟨o, ho, rfl⟩)
  refine h.ofTouches (k := o.pk) (hplaced.trans
    (Touches.saveAttempt hpo ⟨p, hp, hpk'.symm, hpk.symm⟩)) (hstock₁.frame rfl rfl) ?_
  intro x hx hxk
  -- The order on file is the placed one.
  have hxo : x = o.asPlaced rt.now none := by
    have hex : ∃ y ∈ db.orders, Row.pk y = Row.pk (o.asPlaced rt.now none) := ⟨o, ho, rfl⟩
    rcases (Table.mem_put hex).mp hx with hx | ⟨-, hxne⟩
    · exact hx
    · exact absurd hxk hxne
  subst hxo
  constructor
  · show Secured (db.orderLines o.pk) ((db.promoted rt.now o.pk).orderAllocations o.pk)
    rw [hview]
    exact secured_of_promote (fun a ha => (Db.mem_orderAllocations.mp ha).2) hne hdraft.unpicked
      hheld hlive
  · show PaymentOk _ (db.orderLines o.pk) _ ((db.saveAttempt p').orderAttempts o.pk)
    exact paymentOk_completed hpay hst hch (Db.mem_orderAttempts.mpr ⟨hp, hpk.symm⟩) hpk' hpo
      (by rw [heq]) (by rw [heq]) rfl rfl

/-- Saving an attempt that keeps its status, or that leaves PENDING without success. -/
theorem paymentOk_saveAttempt {db : Db} {o : Order} {ls : List OrderLine} {as as' : List Allocation}
    {p p' : PaymentAttempt} (hpay : PaymentOk o ls as (db.orderAttempts o.pk))
    (hp : p ∈ db.paymentAttempts) (hpk : p'.pk = p.pk) (hpo : p.orderId = o.pk)
    (hpo' : p'.orderId = o.pk) (hamount : p'.amount = p.amount)
    (hst : p'.status = p.status
      ∨ (p.status = .pending ∧ p'.status ≠ .pending ∧ p'.status ≠ .succeeded))
    (has : p'.status = p.status → as' = as) :
    PaymentOk o ls as' ((db.saveAttempt p').orderAttempts o.pk) := by
  have hpmem : p ∈ db.orderAttempts o.pk := Db.mem_orderAttempts.mpr ⟨hp, hpo⟩
  have hsplit := fun q hq => mem_orderAttempts_saveAttempt (k := o.pk) (q := q) hp hpk hq
  -- The saved attempt is PENDING or SUCCEEDED only if it was before.
  have hpend : p'.status = .pending → p.status = .pending := by
    intro hs
    rcases hst with hst | ⟨-, hne, -⟩
    · rw [← hst]; exact hs
    · exact absurd hs hne
  have hsucc : p'.status = .succeeded → p.status = .succeeded := by
    intro hs
    rcases hst with hst | ⟨-, -, hne⟩
    · rw [← hst]; exact hs
    · exact absurd hs hne
  exact {
    onePending := one_saveAttempt hpay.onePending hpmem hpk hpend
    oneSucceeded := one_saveAttempt hpay.oneSucceeded hpmem hpk hsucc
    paid := fun hch hs => by
      obtain ⟨q, hq, hqs⟩ := hpay.paid hch hs
      obtain ⟨hqm, hqo⟩ := Db.mem_orderAttempts.mp hq
      by_cases hqp : q.pk = p.pk
      · have hqp' : q = p := Table.eq_of_pk_eq hqm hp hqp
        subst hqp'
        rcases hst with hst | ⟨hst, -⟩
        · exact ⟨p', mem_saveAttempt_self hp hpk hpo', hst.trans hqs⟩
        · rw [hqs] at hst; cases hst
      · exact ⟨q, Db.mem_orderAttempts.mpr ⟨(Table.mem_put ⟨p, hp, hpk.symm⟩).mpr
          (Or.inr ⟨hqm, fun h => hqp (h.trans hpk)⟩), hqo⟩, hqs⟩
    unpaid := fun hd q hq => by
      rcases hsplit q hq with rfl | ⟨hq, -⟩
      · exact fun hc => hpay.unpaid hd p hpmem (hsucc hc)
      · exact hpay.unpaid hd q hq
    amount := fun q hq => by
      rcases hsplit q hq with rfl | ⟨hq, -⟩
      · rw [hpay.amount p hpmem, hamount]
      · exact hpay.amount q hq
    retail := fun _ _ => hpay.retail p hpmem
    total := hpay.total
    held := fun hd hq => by
      obtain ⟨q, hq, hqs⟩ := hq
      rcases hsplit q hq with rfl | ⟨hq, hqne⟩
      · rw [has (hqs.trans (hpend hqs).symm)]
        exact hpay.held hd ⟨p, hpmem, hpend hqs⟩
      · rcases hst with hst | ⟨hps, -⟩
        · rw [has hst]
          exact hpay.held hd ⟨q, hq, hqs⟩
        · exact absurd (congrArg PaymentAttempt.pk (hpay.onePending q hq p hpmem hqs hps)) hqne }

/-- Failing keeps the invariant and takes nothing out of stock. -/
theorem fail {db db' : Db} {attemptPk : ℕ} (h : Inv now db)
    (hok : failRetailPayment db attemptPk = .ok db') : Inv now db' ∧ StockQuiet db db' := by
  obtain ⟨p, hp, -, hpend, o, ho, hpk, hch, hst, rfl⟩ := failRetailPayment_eq_ok.mp hok
  obtain ⟨hstock, hpay⟩ := h.orders o ho
  have hdraft : Drafted o.channel (db.orderLines o.pk) (db.orderAllocations o.pk) := by
    unfold StockOk at hstock
    rwa [hst] at hstock
  have hquiet : Quiet db (db.releasedTemporary o.pk) := Quiet.modify (fun a _ hc => by cases hc)
  refine ⟨?_, hquiet.batches, hquiet.consumed⟩
  refine h.ofTouches (k := o.pk) ((touches_releasedTemporary db o.pk).trans
    (Touches.saveAttempt hpk.symm ⟨p, hp, rfl, hpk.symm⟩))
    ((h.stock.setStatus (p := temporaryOf o.pk) (by simp)).frame rfl rfl) ?_
  intro x hx hxk
  -- The order itself is not written.
  have hxo : x = o := Table.eq_of_pk_eq (t := db.orders) hx ho hxk
  subst hxo
  constructor
  · show StockOk x (db.orderLines x.pk) ((db.releasedTemporary x.pk).orderAllocations x.pk)
    unfold StockOk
    rw [hst]
    obtain ⟨hfree, hunpicked⟩ := without_of_releasedTemporary hdraft
    refine ⟨fun hc => ?_, hunpicked, Or.inl hfree⟩
    rw [hch] at hc
    cases hc
  · refine paymentOk_saveAttempt hpay hp rfl hpk.symm
      hpk.symm rfl (Or.inr ⟨hpend, by simp, by simp⟩) (fun hc => ?_)
    rw [hpend] at hc
    cases hc

/-- Saving an attempt under its own key, its order and its amount. -/
theorem saveAttempt {db : Db} {p : PaymentAttempt} (h : Inv now db) (p' : PaymentAttempt)
    (hp : p ∈ db.paymentAttempts) (hpk : p'.pk = p.pk) (hpo : p'.orderId = p.orderId)
    (hamount : p'.amount = p.amount)
    (hst : p'.status = p.status
      ∨ (p.status = .pending ∧ p'.status ≠ .pending ∧ p'.status ≠ .succeeded)) :
    Inv now (db.saveAttempt p') ∧ StockQuiet db (db.saveAttempt p') := by
  refine ⟨?_, rfl, fun _ ha _ => ha⟩
  refine h.ofTouches (k := p.orderId) (Touches.saveAttempt hpo ⟨p, hp, hpk.symm, rfl⟩)
    (h.stock.frame rfl rfl) (fun x hx hxk => ?_)
  obtain ⟨hstock, hpay⟩ := h.orders x hx
  exact ⟨hstock, paymentOk_saveAttempt hpay hp hpk hxk.symm (hpo.trans hxk.symm) hamount hst
    (fun _ => rfl)⟩

/-- A session is bound to a PENDING attempt without one, under an id that the column holds and
    that no other attempt has. -/
theorem bindHostedPaymentSession_eq_ok {db db' : Db} {attemptPk : ℕ}
    {session : HostedPaymentSession} :
    bindHostedPaymentSession db attemptPk session = .ok db' ↔
      ∃ p ∈ db.paymentAttempts, p.pk = attemptPk ∧ p.status = .pending
        ∧ p.providerPaymentId = ""
        ∧ FitsColumn maxProviderIdLength session.providerPaymentId
        ∧ (session.providerPaymentId = "" ∨ ∀ q ∈ db.paymentAttempts, q.pk ≠ p.pk →
            q.providerPaymentId ≠ session.providerPaymentId)
        ∧ db' = db.saveAttempt { p with providerPaymentId := session.providerPaymentId } := by
  unfold bindHostedPaymentSession
  simp only [bind_eq_ok, Db.getAttempt_eq_ok, require_eq_ok, requireFits_eq_ok, exists_const,
    pure_eq_ok, and_assoc]
  refine exists_congr (fun p => and_congr_right (fun _ => and_congr_right (fun _ => ?_)))
  refine and_congr_right (fun _ => and_congr_right (fun _ => and_congr_right (fun _ => ?_)))
  exact and_congr_right (fun _ => eq_comm)

/-- **Binding a session.** -/
theorem bind {db db' : Db} {attemptPk : ℕ} {session : HostedPaymentSession} (h : Inv now db)
    (hok : bindHostedPaymentSession db attemptPk session = .ok db') :
    Inv now db' ∧ StockQuiet db db' := by
  obtain ⟨p, hp, -, -, -, -, -, rfl⟩ := bindHostedPaymentSession_eq_ok.mp hok
  exact h.saveAttempt _ hp rfl rfl rfl (Or.inl rfl)

/-- Creating a session binds it. -/
theorem createHostedPaymentSession_eq_ok {db : Db} {attemptPk : ℕ}
    {session : HostedPaymentSession} {r : Db × HostedPaymentSession}
    (h : createHostedPaymentSession db attemptPk session = .ok r) :
    bindHostedPaymentSession db attemptPk session = .ok r.1 ∧ r.2 = session := by
  unfold createHostedPaymentSession at h
  simp only [bind_eq_ok, pure_eq_ok] at h
  obtain ⟨-, -, db', hbind, rfl⟩ := h
  exact ⟨hbind, rfl⟩

/-- Creating a retail session binds it. -/
theorem createRetailHostedPaymentSession_eq_ok {db : Db} {attemptPk : ℕ}
    {session : HostedPaymentSession} {r : Db × RetailPaymentRedirect}
    (h : createRetailHostedPaymentSession db attemptPk session = .ok r) :
    bindHostedPaymentSession db attemptPk session = .ok r.1 := by
  unfold createRetailHostedPaymentSession at h
  simp only [bind_eq_ok, pure_eq_ok] at h
  obtain ⟨r', hcreate, attempt, -, rfl⟩ := h
  exact (createHostedPaymentSession_eq_ok hcreate).1

/-- **Rule.** What saving a PENDING attempt as CANCELLED keeps, cancelling the pending attempts
    of an order one after the other keeps. -/
theorem cancelPending_induction {P : Db → Prop} {db db' : Db} {k : ℕ}
    (hsave : ∀ db p, P db → p ∈ db.paymentAttempts → p.status = .pending →
      P (db.saveAttempt { p with status := .cancelled }))
    (hok : cancelPendingPaymentAttemptsForOrder db k = .ok db') (h : P db) : P db' := by
  have key : ∀ (ps : List PaymentAttempt) (db : Db), P db → (ps.map PaymentAttempt.pk).Nodup →
      (∀ p ∈ ps, p ∈ db.paymentAttempts ∧ p.status = .pending) →
      P (db.withAttempts (ps.foldl
        (fun t a => t.put ((setPaymentStatus .cancelled).apply a)) db.paymentAttempts)) := by
    intro ps
    -- By induction on the attempts, whose keys are distinct.
    induction ps with
    | nil => exact fun db h _ _ => h
    | cons p ps ih =>
      intro db h hnd hps
      rw [List.map_cons, List.nodup_cons] at hnd
      obtain ⟨hp, hpend⟩ := hps p (List.mem_cons_self ..)
      refine ih _ (hsave db p h hp hpend) hnd.2
        (fun q hq => ⟨?_, (hps q (List.mem_cons_of_mem _ hq)).2⟩)
      have hne : q.pk ≠ p.pk := fun he => hnd.1 (he ▸ List.mem_map_of_mem hq)
      exact (Table.mem_put (r := (setPaymentStatus .cancelled).apply p) ⟨p, hp, rfl⟩).mpr
        (Or.inr ⟨(hps q (List.mem_cons_of_mem _ hq)).1, hne⟩)
  unfold cancelPendingPaymentAttemptsForOrder at hok
  simp only [bind_eq_ok, Db.getOrder_eq_ok, pure_eq_ok] at hok
  obtain ⟨o, -, rfl⟩ := hok
  refine key _ db h (db.paymentAttempts.select_nodup_pk _) (fun p hp => ?_)
  obtain ⟨hp, hpend⟩ := Table.mem_select.mp hp
  simp only [pendingOf, Bool.and_eq_true, decide_eq_true_eq] at hpend
  exact ⟨hp, hpend.2⟩

/-- Cancelling pending attempts, one after the other. -/
theorem cancelPending {db db' : Db} {k : ℕ} (h : Inv now db)
    (hok : cancelPendingPaymentAttemptsForOrder db k = .ok db') :
    Inv now db' ∧ StockQuiet db db' := by
  refine cancelPending_induction (P := fun d => Inv now d ∧ StockQuiet db d) ?_ hok
    ⟨h, rfl, fun _ ha _ => ha⟩
  intro d p hd hp hpend
  obtain ⟨hinv, hquiet⟩ := hd.1.saveAttempt { p with status := .cancelled } hp rfl
    rfl rfl (Or.inr ⟨hpend, by simp, by simp⟩)
  exact ⟨hinv, hquiet.batches.trans hd.2.batches, hd.2.consumed⟩

/-- What a reconciliation that goes through did: nothing, complete, or fail. -/
theorem reconcile_eq_ok {rt : Runtime} {db db' : Db} {attemptPk : ℕ}
    {external : ExternalPaymentState}
    (hok : reconcileRetailPayment rt db attemptPk external = .ok db') :
    db' = db
      ∨ completeRetailPayment rt db attemptPk external.providerTransactionId = .ok db'
      ∨ failRetailPayment db attemptPk = .ok db' := by
  unfold reconcileRetailPayment reconcilePaymentAttempt at hok
  simp only [bind_eq_ok] at hok
  obtain ⟨-, -, -, -, ⟨attempt, step⟩, -, hok⟩ := hok
  cases step with
  | done =>
    simp only [ReconciliationStep.run, pure_eq_ok] at hok
    exact Or.inl hok.symm
  | onSucceeded => exact Or.inr (Or.inl hok)
  | onFailed => exact Or.inr (Or.inr hok)

/-- **Reconciliation.** -/
theorem reconcile {rt : Runtime} {db db' : Db} {attemptPk : ℕ} {external : ExternalPaymentState}
    (h : Inv rt.now db) (hok : reconcileRetailPayment rt db attemptPk external = .ok db') :
    Inv rt.now db' ∧ StockQuiet db db' := by
  rcases reconcile_eq_ok hok with rfl | hok | hok
  · exact ⟨h, rfl, fun _ ha _ => ha⟩
  · exact h.complete hok
  · exact h.fail hok

end Inv

end SwedeSweets
