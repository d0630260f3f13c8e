import SwedeSweets.Guarantees.Payments

namespace SwedeSweets

open Relational Fallible Transition

/-!
# Settling pending payments

A PENDING attempt can be settled while its order is a DRAFT (`PendingDraft`).  Every
operation keeps that but one: `cancelOrder` takes a DRAFT order with a PENDING attempt to
CANCELLED and leaves the attempt behind, where nothing can settle it any more
(`stranded_payment`).  As long as no such order is cancelled, no payment is stranded
(`no_stranded_payment`).
-/

/-- No operation but a cancellation takes an order to CANCELLED. -/
def Uncancelling (db db' : Db) : Prop :=
  ∀ o ∈ db'.orders, o.status = .cancelled → o ∈ db.orders

namespace Uncancelling

variable {db db₁ db₂ : Db}

theorem ofEq (h : db₁.orders = db.orders) : Uncancelling db db₁ := fun _ ho _ => h ▸ ho

theorem trans (h : Uncancelling db db₁) (h' : Uncancelling db₁ db₂) : Uncancelling db db₂ :=
  fun o ho hst => h o (h' o ho hst) hst

/-- Saving an order that is not cancelled cancels nothing. -/
theorem saveOrder {o : Order} (ho : o.status ≠ .cancelled) : Uncancelling db (db.saveOrder o) := by
  intro x hx hst
  rcases Table.of_mem_put hx with rfl | ⟨hx, -⟩
  · exact absurd hst ho
  · exact hx

theorem insertOrder {rt : Runtime} {channel : Channel} {currency : Currency}
    {customer : Option ℕ} {r : Db × Order}
    (h : SwedeSweets.insertOrder rt db channel currency customer = .ok r) : Uncancelling db r.1 := by
  rw [Inv.insertOrder_eq_ok h]
  intro x hx hst
  rcases Table.mem_insert.mp hx with hx | rfl
  · exact hx
  · cases hst

/-- A new draft cancels nothing. -/
theorem createDraft {rt : Runtime} {draft : OrderDraft} {r : Db × Order}
    (h : createDraftOrder rt db draft = .ok r) : Uncancelling db r.1 := by
  unfold createDraftOrder at h
  simp only [bind_eq_ok, pure_eq_ok] at h
  obtain ⟨-, -, ⟨db₁, o⟩, hins, db₂, hlines, rfl⟩ := h
  obtain ⟨xs, -, rfl⟩ := createOrderLines_eq_ok hlines
  exact (insertOrder hins).trans (ofEq rfl)

/-- Placing an order, by a policy that writes no order. -/
theorem placeBusiness {rt : Runtime} {k : ℕ} {user : Option ℕ}
    (h : Business.placeOrder rt db k user = .ok db₁) : Uncancelling db db₁ := by
  obtain ⟨o, -, -, -, db₂, hprep, rfl⟩ := placeOrder_eq_ok.mp h
  obtain ⟨-, -, xs, rfl, -⟩ := Inv.prepareBusiness_eq_ok hprep
  exact saveOrder (by simp)

/-- A placed edit saves its order as edited, and still placed. -/
theorem updatePlaced {rt : Runtime} {k : ℕ} {lines : List ResolvedOrderLine} {user : Option ℕ}
    (h : updatePlacedOrder rt db k lines clearOrderReservationsBeforeLineReplacement
      (prepareBusinessOrderForPlacement rt) user = .ok db₁) : Uncancelling db db₁ := by
  obtain ⟨o, ho, -, hst, incoming, existing, -, -, d₁, d₂, d₃, hclear, hrep, hprep, rfl⟩ :=
    updatePlacedOrder_eq_ok h
  simp only [clearOrderReservationsBeforeLineReplacement, pure_eq_ok] at hclear
  subst hclear
  obtain ⟨-, -, xs, rfl, -⟩ := Inv.prepareBusiness_eq_ok hprep
  have horders : d₂.orders = db.orders := by
    unfold replaceLines at hrep
    simp only [bind_eq_ok] at hrep
    obtain ⟨retained, -, hrep⟩ := hrep
    obtain ⟨ys, -, rfl⟩ := createOrderLines_eq_ok hrep
    rfl
  -- the edit only stamps the order: it stays placed
  have hedited : (o.markAsEdited rt user).status ≠ .cancelled := by
    show o.status ≠ .cancelled
    rw [hst]
    simp
  have hkept : Uncancelling db (d₂.withReservations xs) := ofEq horders
  exact hkept.trans (saveOrder hedited)

/-- A change of draft lines leaves the orders alone. -/
theorem draftLine {α : Type} {k : ℕ} {guard : Order → Result Unit} {f : Order → Result Db}
    {x : Result α} (hf : ∀ o db', f o = .ok db' → db'.orders = db.orders)
    (h : (do let _ ← x; lockedOrder db k guard f) = .ok db₁) : Uncancelling db db₁ := by
  obtain ⟨-, -, h⟩ := bind_eq_ok.mp h
  obtain ⟨o, -, -, -, h⟩ := lockedOrder_eq_ok.mp h
  exact ofEq (hf o db₁ h)

/-- Every operation that moves no payment and is no cancellation. -/
theorem exec (rt : Runtime) (db : Db) {op : Op} (hpay : op.movesPayments = false)
    (hcancel : ∀ k user reason note, op ≠ .cancelOrder k user reason note) :
    Uncancelling db (op.exec rt db) := by
  have hself : Uncancelling db db := ofEq rfl
  -- only a cancellation writes the status this lemma is about
  cases op with
  | catalog => exact ofEq rfl
  | createBatch =>
    refine Db.commit_of (fun db' hok => ?_) hself
    obtain ⟨-, -, product, batchId, location, rfl⟩ := createBatch_eq_ok hok
    exact ofEq rfl
  | updateBatch =>
    refine Db.commit_of (fun db' hok => ?_) hself
    obtain ⟨b, -, -, -, -, -, -, location, rfl⟩ := updateBatch_eq_ok hok
    exact ofEq rfl
  | closeBatch =>
    refine Db.commit_of (fun db' hok => ?_) hself
    obtain ⟨b, -, -, -, rfl⟩ := closeBatch_eq_ok.mp hok
    exact ofEq rfl
  | openDraft customer =>
    refine Db.commit_of (fun db' hok => ?_) hself
    obtain ⟨r, hr, rfl⟩ := map_eq_ok.mp hok
    unfold Business.getOrCreateCustomerDraftOrder at hr
    split at hr
    · rw [pure_eq_ok] at hr
      subst hr
      exact hself
    · exact insertOrder hr
  | addDraftLine =>
    refine Db.commit_of (fun db' hok => draftLine (fun o d hd => ?_) hok) hself
    simp only [bind_eq_ok, pure_eq_ok] at hd
    obtain ⟨-, -, -, -, x, -, rfl⟩ := hd
    rfl
  | setDraftLine =>
    refine Db.commit_of (fun db' hok => draftLine (fun o d hd => ?_) hok) hself
    simp only [bind_eq_ok, pure_eq_ok] at hd
    obtain ⟨-, -, l, -, l', -, rfl⟩ := hd
    rfl
  | removeDraftLine =>
    refine Db.commit_of (fun db' hok => draftLine (fun o d hd => ?_) hok) hself
    simp only [bind_eq_ok, pure_eq_ok] at hd
    obtain ⟨l, -, rfl⟩ := hd
    rfl
  | placeOrder => exact Db.commit_of (fun db' hok => placeBusiness hok) hself
  | createOrder =>
    refine Db.commit_of (fun db' hok => ?_) hself
    unfold Business.createOrder Business.createDraftOrder at hok
    simp only [bind_eq_ok] at hok
    obtain ⟨r, ⟨draft, -, hcreate⟩, hplace⟩ := hok
    exact (createDraft hcreate).trans (placeBusiness hplace)
  | updatePlacedOrder =>
    refine Db.commit_of (fun db' hok => ?_) hself
    obtain ⟨resolved, -, hok⟩ := bind_eq_ok.mp hok
    exact updatePlaced hok
  | opsCreateOrder customer lines user =>
    show Uncancelling db (OpsPortal.createOrder rt db customer lines user).1
    unfold OpsPortal.createOrder
    split
    · exact hself
    · rename_i drafted order hcreate
      obtain ⟨draft, -, hcreate⟩ := bind_eq_ok.mp hcreate
      split
      · exact createDraft hcreate
      · rename_i placed hplace
        exact (createDraft hcreate).trans (placeBusiness hplace)
  | opsUpdatePlacedOrder =>
    refine Db.commit_of (fun db' hok => ?_) hself
    obtain ⟨resolved, -, hok⟩ := bind_eq_ok.mp hok
    exact updatePlaced hok
  | createPendingRetailOrder =>
    refine Db.commit_of (fun db' hok => ?_) hself
    unfold createPendingRetailOrder at hok
    simp only [bind_eq_ok, pure_eq_ok] at hok
    obtain ⟨-, -, -, -, resolved, -, -, -, -, -, -, -, r, hins, xs, -, rfl⟩ := hok
    exact (insertOrder hins).trans (ofEq rfl)
  | packOrder =>
    refine Db.commit_of (fun db' hok => ?_) hself
    obtain ⟨o, -, -, -, -, rfl⟩ := Inv.packOrder_fulfillment_eq_ok.mp hok
    exact saveOrder (by simp)
  | deliverOrder =>
    refine Db.commit_of (fun db' hok => ?_) hself
    obtain ⟨o, -, -, -, rfl⟩ := deliverOrder_eq_ok.mp hok
    exact saveOrder (by simp)
  | cancelOrder k user reason note => exact absurd rfl (hcancel k user reason note)
  | _ => cases hpay

end Uncancelling

/-! ### Pending attempts belong to drafts -/

/-- Every PENDING attempt belongs to a DRAFT order. -/
def PendingDraft (db : Db) : Prop :=
  ∀ p ∈ db.paymentAttempts, p.status = .pending →
    ∃ o ∈ db.orders, o.pk = p.orderId ∧ o.status = .draft

/-- An order is cancelled only when it has no PENDING attempt. -/
def CancelsSettled (s : State) (l : Runtime × Op) : Prop :=
  ∀ k user reason note, l.2 = .cancelOrder k user reason note →
    ∀ p ∈ s.db.paymentAttempts, p.orderId = k → p.status ≠ .pending

namespace PendingDraft

variable {rt : Runtime} {now : Time} {db db' : Db}

/-- Attempts that keep their status or settle, and orders that stay. -/
theorem ofOrders (h : PendingDraft db) (horders : db'.orders = db.orders)
    (hold : ∀ p' ∈ db'.paymentAttempts, p'.status = .pending →
      ∃ p ∈ db.paymentAttempts, p.status = .pending ∧ p.orderId = p'.orderId) :
    PendingDraft db' := by
  intro p' hp' hst
  obtain ⟨p, hp, hpend, horder⟩ := hold p' hp' hst
  obtain ⟨o, ho, hpk, hdraft⟩ := h p hp hpend
  exact ⟨o, horders ▸ ho, hpk.trans horder, hdraft⟩

/-- A started payment is for a draft order. -/
theorem start {checkoutPk : ℕ} {r : Db × PaymentAttempt} (h : PendingDraft db)
    (hok : startRetailPayment rt db checkoutPk = .ok r) : PendingDraft r.1 := by
  obtain ⟨o, ho, -, hst, -, xs, -, amount, hpos, -, -, rfl⟩ := Inv.startRetailPayment_eq_ok hok
  intro p hp hpend
  rcases Table.mem_insert.mp hp with hp | rfl
  · exact h p hp hpend
  · exact ⟨o, ho, rfl, hst⟩

/-- Binding a session leaves the attempt's order as it was. -/
theorem bind {attemptPk : ℕ} {session : HostedPaymentSession} (h : PendingDraft db)
    (hok : bindHostedPaymentSession db attemptPk session = .ok db') : PendingDraft db' := by
  obtain ⟨p, hp, -, hpend, -, -, -, rfl⟩ := Inv.bindHostedPaymentSession_eq_ok.mp hok
  refine h.ofOrders rfl (fun q hq hst => ?_)
  rcases Table.of_mem_put hq with rfl | ⟨hq, -⟩
  · exact ⟨p, hp, hpend, rfl⟩
  · exact ⟨q, hq, hst, rfl⟩

/-- Saving a settled attempt. -/
theorem settle {p : PaymentAttempt} (h : PendingDraft db) (hp : p.status ≠ .pending) :
    PendingDraft (db.saveAttempt p) := by
  refine h.ofOrders rfl (fun q hq hst => ?_)
  rcases Table.of_mem_put hq with rfl | ⟨hq, -⟩
  · exact absurd hst hp
  · exact ⟨q, hq, hst, rfl⟩

/-- A failed attempt is no longer pending. -/
theorem fail {attemptPk : ℕ} (h : PendingDraft db) (hok : failRetailPayment db attemptPk = .ok db') :
    PendingDraft db' := by
  obtain ⟨p, -, -, -, o, -, -, -, -, rfl⟩ := Inv.failRetailPayment_eq_ok.mp hok
  exact settle h (by simp)

/-- Completing takes the only PENDING attempt of the order that leaves DRAFT. -/
theorem complete {attemptPk : ℕ} {transactionId : Option String} (hinv : Inv rt.now db)
    (h : PendingDraft db) (hok : completeRetailPayment rt db attemptPk transactionId = .ok db') :
    PendingDraft db' := by
  obtain ⟨p, hp, -, hpend, o, ho, hpk, -, -, -, -, p', hsucc, rfl⟩ :=
    Inv.completeRetailPayment_eq_ok.mp hok
  have heq := Inv.succeeded_eq_ok hsucc
  intro q hq hqpend
  rcases Table.of_mem_put hq with rfl | ⟨hq, hqp⟩
  · rw [heq] at hqpend
    cases hqpend
  obtain ⟨x, hx, hxk, hxst⟩ := h q hq hqpend
  -- another pending attempt of the placed order would be a second one of the same order
  by_cases hxo : x.pk = o.pk
  · have hqm : q ∈ db.orderAttempts o.pk := Db.mem_orderAttempts.mpr ⟨hq, hxk.symm.trans hxo⟩
    have hpm : p ∈ db.orderAttempts o.pk := Db.mem_orderAttempts.mpr ⟨hp, hpk.symm⟩
    have hqeq := (hinv.orders o ho).payment.onePending q hqm p hpm hqpend hpend
    refine absurd ?_ hqp
    rw [hqeq, heq]
    rfl
  · refine ⟨x, ?_, hxk, hxst⟩
    exact (Table.mem_put (r := o.asPlaced rt.now none) ⟨o, ho, rfl⟩).mpr (Or.inr ⟨hx, hxo⟩)

/-- Cancelling an order without PENDING attempts. -/
theorem cancel {k : ℕ} {user : Option ℕ} {reason note : String} (h : PendingDraft db)
    (hnone : ∀ p ∈ db.paymentAttempts, p.orderId = k → p.status ≠ .pending)
    (hok : Fulfillment.cancelOrder rt db k user reason note = .ok db') : PendingDraft db' := by
  unfold Fulfillment.cancelOrder releaseOrderReservationsBeforeCancellation at hok
  obtain ⟨o, ho, rfl, -, db₁, hprep, -, -, rfl⟩ := cancelOrder_eq_ok.mp hok
  rw [cancelReservationsForOrder_eq, Except.ok.injEq] at hprep
  subst hprep
  intro p hp hpend
  obtain ⟨x, hx, hxk, hxst⟩ := h p hp hpend
  refine ⟨x, Table.mem_put_of_ne hx (fun hxo => ?_), hxk, hxst⟩
  exact hnone p hp (hxk.symm.trans hxo) hpend

/-- An operation that moves no payment and is no cancellation. -/
theorem unmoved {op : Op} (hinv : Inv rt.now db) (h : PendingDraft db)
    (hpay : op.movesPayments = false)
    (hcancel : ∀ k user reason note, op ≠ .cancelOrder k user reason note) :
    PendingDraft (op.exec rt db) := by
  have hkept := hinv.exec op
  have hattempts := hkept.attempts hpay
  intro p hp hpend
  obtain ⟨x, hx, hxk, hxst⟩ := h p (hattempts ▸ hp) hpend
  obtain ⟨o, ho, hpk⟩ := hkept.inv.references.attempt p hp
  refine ⟨o, ho, hpk, ?_⟩
  have hpm : p ∈ (op.exec rt db).orderAttempts o.pk := Db.mem_orderAttempts.mpr ⟨hp, hpk.symm⟩
  have hpayOk := (hkept.inv.orders o ho).payment
  -- a sold order would have a successful attempt already, while it was a DRAFT
  have hunsold : ¬ o.status.Sold := by
    intro hsold
    obtain ⟨q, hq, hqst⟩ := hpayOk.paid (hpayOk.retail p hpm) hsold
    obtain ⟨hq, hqk⟩ := Db.mem_orderAttempts.mp hq
    refine (hinv.orders x hx).payment.unpaid hxst q (Db.mem_orderAttempts.mpr ⟨hattempts ▸ hq, ?_⟩)
      hqst
    exact hqk.trans (hpk.trans hxk.symm)
  cases hst : o.status with
  | draft => rfl
  | placed => exact absurd (Or.inl hst) hunsold
  | packed => exact absurd (Or.inr (Or.inl hst)) hunsold
  | delivered => exact absurd (Or.inr (Or.inr hst)) hunsold
  | cancelled =>
    have hold := Uncancelling.exec rt db hpay hcancel o ho hst
    have hox : o = x := Table.eq_of_pk_eq (t := db.orders) hold hx (hpk.trans hxk.symm)
    rw [hox, hxst] at hst
    cases hst

/-- **Step.** Every operation keeps it, unless it cancels an order with a PENDING attempt. -/
theorem exec {s : State} {op : Op} (hinv : Inv rt.now s.db) (h : PendingDraft s.db)
    (hgood : CancelsSettled s (rt, op)) : PendingDraft (op.exec rt s.db) := by
  -- a cancellation is the one operation the run's condition speaks about
  by_cases hcancel : ∃ k user reason note, op = .cancelOrder k user reason note
  · obtain ⟨k, user, reason, note, rfl⟩ := hcancel
    exact Db.commit_of (fun db' hok => h.cancel (hgood k user reason note rfl) hok) h
  have hother : ∀ k user reason note, op ≠ .cancelOrder k user reason note :=
    fun k user reason note he => hcancel ⟨k, user, reason, note, he⟩
  by_cases hmoves : op.movesPayments = true
  · cases op.attemptMove rt s.db hmoves with
    | none hsame => rwa [hsame]
    | start checkoutPk attempt hok => exact h.start hok
    | begin checkoutPk started attempt hstart session hbind => exact (h.start hstart).bind hbind
    | bind attemptPk session hok => exact h.bind hok
    | complete attemptPk transactionId hok => exact h.complete hinv hok
    | fail attemptPk hok => exact h.fail hok
    | cancel orderPk hok =>
      exact Inv.cancelPending_induction (fun d p hd _ _ => hd.settle (by simp)) hok h
  · exact h.unmoved hinv (by simpa using hmoves) hother

end PendingDraft

/-! ### Settling -/

/-- The status of an attempt. -/
def Db.attemptStatus (db : Db) (attemptPk : ℕ) : Option PaymentStatus :=
  (db.paymentAttempts.get? attemptPk).map PaymentAttempt.status

/-- A PENDING attempt of a DRAFT order can be failed. -/
theorem Inv.exists_fail {now : Time} {db : Db} {p : PaymentAttempt} {o : Order} (h : Inv now db)
    (hp : p ∈ db.paymentAttempts) (ho : o ∈ db.orders) (hpk : o.pk = p.orderId)
    (hst : o.status = .draft) (hpend : p.status = .pending) :
    ∃ db', failRetailPayment db p.pk = .ok db' := by
  have hch := (h.orders o ho).payment.retail p (Db.mem_orderAttempts.mpr ⟨hp, hpk.symm⟩)
  exact ⟨_, failRetailPayment_eq_ok.mpr ⟨p, hp, rfl, hpend, o, ho, hpk, hch, hst, rfl⟩⟩

/-- A PENDING attempt of a DRAFT order whose stock is still held can be completed. -/
theorem Inv.exists_complete {now : Time} {rt : Runtime} {db : Db} {p : PaymentAttempt} {o : Order}
    {transactionId : Option String} (h : Inv now db) (hp : p ∈ db.paymentAttempts)
    (ho : o ∈ db.orders) (hpk : o.pk = p.orderId) (hst : o.status = .draft)
    (hpend : p.status = .pending) (hact : ∃ a ∈ db.allocations, activeOf rt.now o.pk a = true)
    (hvalid : ValidTransactionId transactionId) :
    ∃ db', completeRetailPayment rt db p.pk transactionId = .ok db' := by
  have hch := (h.orders o ho).payment.retail p (Db.mem_orderAttempts.mpr ⟨hp, hpk.symm⟩)
  obtain ⟨-, -, deadline, hheld⟩ := h.held_of_pending hp ho hpk hst hpend
  obtain ⟨p', hsucc⟩ := exists_succeeded p hvalid
  refine ⟨_, completeRetailPayment_eq_ok.mpr ⟨p, hp, rfl, hpend, o, ho, hpk, hch, hst, hact, ?_,
    p', hsucc, rfl⟩⟩
  intro x hx hxr
  obtain ⟨hxk, hxres⟩ := reservedOf_iff.mp hxr
  rw [hheld.deadline x (Db.mem_orderAllocations.mpr ⟨hx, hxk⟩) hxres]
  exact Option.some_ne_none _

/-- The attempt after it was failed. -/
theorem attempt_of_fail {db db' : Db} {attemptPk : ℕ}
    (hok : failRetailPayment db attemptPk = .ok db') :
    ∃ p ∈ db.paymentAttempts, p.pk = attemptPk ∧
      { p with status := .failed } ∈ db'.paymentAttempts := by
  obtain ⟨p, hp, hpk, -, o, -, -, -, -, rfl⟩ := Inv.failRetailPayment_eq_ok.mp hok
  exact ⟨p, hp, hpk, (Table.mem_put (r := { p with status := .failed }) ⟨p, hp, rfl⟩).mpr
    (Or.inl rfl)⟩

/-- The attempt after it was completed. -/
theorem attempt_of_complete {rt : Runtime} {db db' : Db} {attemptPk : ℕ}
    {transactionId : Option String}
    (hok : completeRetailPayment rt db attemptPk transactionId = .ok db') :
    ∃ p ∈ db.paymentAttempts, p.pk = attemptPk ∧ ∃ p', p.succeeded transactionId = .ok p' ∧
      p' ∈ db'.paymentAttempts := by
  obtain ⟨p, hp, hpk, -, o, -, -, -, -, -, -, p', hsucc, rfl⟩ :=
    Inv.completeRetailPayment_eq_ok.mp hok
  have hpk' : p.pk = p'.pk := by rw [Inv.succeeded_eq_ok hsucc]
  exact ⟨p, hp, hpk, p', hsucc, (Table.mem_put (r := p') ⟨p, hp, hpk'⟩).mpr (Or.inl rfl)⟩

theorem attemptStatus_of_mem {db : Db} {p : PaymentAttempt} (hp : p ∈ db.paymentAttempts) :
    db.attemptStatus p.pk = some p.status := by
  unfold Db.attemptStatus
  rw [show db.paymentAttempts.get? p.pk = some p from Table.get?_self hp]
  rfl

/-- **No stranded payment**, as long as no order with a PENDING attempt is cancelled. -/
theorem no_stranded_payment {s : State} {ls : List (Runtime × Op)}
    (h : Run (fun s l t => CancelsSettled s l ∧ SystemStep s l t) State.init ls s) :
    ∀ p ∈ s.db.paymentAttempts, p.status = .pending →
      (∃ o ∈ s.db.orders, o.pk = p.orderId ∧ o.status = .draft) ∧
      (∃ db', failRetailPayment s.db p.pk = .ok db' ∧ db'.attemptStatus p.pk = some .failed) ∧
      (∀ (rt : Runtime) (transactionId : Option String), s.clock ≤ rt.now →
        (∀ a ∈ s.db.orderAllocations p.orderId, a.status = .reserved → a.isActive rt.now = true) →
        Inv.ValidTransactionId transactionId →
        ∃ db', completeRetailPayment rt s.db p.pk transactionId = .ok db' ∧
          db'.attemptStatus p.pk = some .succeeded) := by
  -- pending attempts keep a draft order through every step that meets the condition
  have hboth : Inv s.clock s.db ∧ PendingDraft s.db := by
    refine Run.invariant_of (I := fun s => Inv s.clock s.db ∧ PendingDraft s.db) ?_ h
      ⟨Inv.empty 0, fun p hp => (Table.not_mem_empty p hp).elim⟩
    rintro s l t ⟨hinv, hpend⟩ hgood hst
    refine ⟨hst.inv hinv, ?_⟩
    obtain ⟨hle, rfl⟩ := hst
    exact hpend.exec (hinv.later hle) hgood
  obtain ⟨hinv, hdraft⟩ := hboth
  intro p hp hpend
  obtain ⟨o, ho, hpk, hst⟩ := hdraft p hp hpend
  refine ⟨⟨o, ho, hpk, hst⟩, ?_, fun rt transactionId _ hlive hvalid => ?_⟩
  · obtain ⟨db', hok⟩ := hinv.exists_fail hp ho hpk hst hpend
    obtain ⟨q, -, hqk, hmem⟩ := attempt_of_fail hok
    exact ⟨db', hok, hqk ▸ attemptStatus_of_mem hmem⟩
  · obtain ⟨-, ⟨a, ha, hares⟩, -⟩ := hinv.held_of_pending hp ho hpk hst hpend
    obtain ⟨hmem, hak⟩ := Db.mem_orderAllocations.mp ha
    have hactive : activeOf rt.now o.pk a = true := Bool.and_eq_true_iff.mpr
      ⟨reservedOf_iff.mpr ⟨hak, hares⟩, hlive a (hpk ▸ ha) hares⟩
    obtain ⟨db', hok⟩ := hinv.exists_complete hp ho hpk hst hpend ⟨a, hmem, hactive⟩ hvalid
    obtain ⟨q, -, hqk, p', hsucc, hp'⟩ := attempt_of_complete hok
    have heq := Inv.succeeded_eq_ok hsucc
    have hpk' : p'.pk = p.pk := by rw [heq, ← hqk]
    have hstatus : p'.status = .succeeded := by rw [heq]
    exact ⟨db', hok, hpk' ▸ hstatus ▸ attemptStatus_of_mem hp'⟩

/-- The morning's pending payment can be failed. -/
theorem no_stranded_payment_morning :
    ∃ db', failRetailPayment (State.init.after Shop.morning).db 1 = .ok db' ∧
      db'.attemptStatus 1 = some .failed := by
  have hrun : Run (fun s l t => CancelsSettled s l ∧ SystemStep s l t) State.init Shop.morning
      (State.init.after Shop.morning) := by
    refine (State.run_after (by decide)).mono (fun l hl s t hst => ⟨?_, hst⟩)
    intro k user reason note hop
    revert l
    simp [Shop.morning, Shop.opening]
  have hex : ∃ p ∈ (State.init.after Shop.morning).db.paymentAttempts.rows, p.pk = 1 ∧
      p.status = .pending := by decide +kernel
  obtain ⟨p, hp, hpk, hpend⟩ := hex
  have hfail := (no_stranded_payment hrun p hp hpend).2.1
  rw [hpk] at hfail
  exact hfail

/-- **A stranded payment.**  Cancelling the retail order of the morning leaves its attempt
    PENDING, and then neither outcome of the payment can be entered. -/
theorem stranded_payment :
    ∃ s, Reachable s ∧ ∃ p ∈ s.db.paymentAttempts, p.status = .pending ∧
      (∃ o ∈ s.db.orders, o.pk = p.orderId ∧ o.status = .cancelled) ∧
      (∀ db', failRetailPayment s.db p.pk ≠ .ok db') ∧
      (∀ rt transactionId db', completeRetailPayment rt s.db p.pk transactionId ≠ .ok db') := by
  let ls : List (Runtime × Op) := Shop.morning ++ [(Shop.runtime 4, .cancelOrder 2 none "other" "")]
  have hex : ∃ p ∈ (State.init.after ls).db.paymentAttempts.rows, p.status = .pending ∧
      ∃ o ∈ (State.init.after ls).db.orders.rows, o.pk = p.orderId ∧ o.status = .cancelled := by
    decide +kernel
  obtain ⟨p, hp, hpend, o, ho, hpk, hst⟩ := hex
  -- failing and completing both insist on a draft order
  have hnodraft : ∀ q ∈ (State.init.after ls).db.paymentAttempts, q.pk = p.pk →
      ∀ x ∈ (State.init.after ls).db.orders, x.pk = q.orderId → x.status ≠ .draft := by
    intro q hq hqp x hx hxk hxst
    have hqeq : q = p := Table.eq_of_pk_eq (t := (State.init.after ls).db.paymentAttempts) hq hp hqp
    subst hqeq
    have hxo : x = o :=
      Table.eq_of_pk_eq (t := (State.init.after ls).db.orders) hx ho (hxk.trans hpk.symm)
    rw [hxo, hst] at hxst
    cases hxst
  refine ⟨_, reachable_after ls (by decide), p, hp, hpend, ⟨o, ho, hpk, hst⟩, ?_, ?_⟩
  · intro db' hok
    obtain ⟨q, hq, hqp, -, x, hx, hxk, -, hxst, -⟩ := Inv.failRetailPayment_eq_ok.mp hok
    exact hnodraft q hq hqp x hx hxk hxst
  · intro rt transactionId db' hok
    obtain ⟨q, hq, hqp, -, x, hx, hxk, -, hxst, -⟩ := Inv.completeRetailPayment_eq_ok.mp hok
    exact hnodraft q hq hqp x hx hxk hxst

end SwedeSweets
