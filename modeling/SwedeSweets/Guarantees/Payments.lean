import SwedeSweets.Guarantees.Stock

namespace SwedeSweets

open Relational Fallible Transition

/-!
# Payment guarantees

* `AttemptMove` — what an operation may do to payment attempts, one case per payment
  service (`Op.attemptMove`);
* `PaymentStep` — so their status stays, or a PENDING one moves; and when one moves to
  SUCCEEDED, its order is placed and its stock promoted in the same step (`Completed`);
* `payment_and_order_agree` — the payment attempts of an order fit its status and total.
-/

/-! ### What an operation does to payment attempts -/

/-- What one of the operations on payment attempts does: nothing, or one of the payment
    services.  Beginning a hosted payment commits the attempt before it binds the session. -/
inductive AttemptMove (rt : Runtime) (db db' : Db) : Prop where
  | none (h : db' = db)
  | start (checkoutPk : ℕ) (attempt : PaymentAttempt)
      (h : startRetailPayment rt db checkoutPk = .ok (db', attempt))
  | begin (checkoutPk : ℕ) (started : Db) (attempt : PaymentAttempt)
      (hstart : startRetailPayment rt db checkoutPk = .ok (started, attempt))
      (session : HostedPaymentSession)
      (hbind : bindHostedPaymentSession started attempt.pk session = .ok db')
  | bind (attemptPk : ℕ) (session : HostedPaymentSession)
      (h : bindHostedPaymentSession db attemptPk session = .ok db')
  | complete (attemptPk : ℕ) (transactionId : Option String)
      (h : completeRetailPayment rt db attemptPk transactionId = .ok db')
  | fail (attemptPk : ℕ) (h : failRetailPayment db attemptPk = .ok db')
  | cancel (orderPk : ℕ) (h : cancelPendingPaymentAttemptsForOrder db orderPk = .ok db')

section

variable {rt : Runtime} {db db' : Db}

/-- Beginning a hosted payment starts it, and may bind its session. -/
theorem attemptMove_begin (checkoutPk : ℕ) (session : HostedPaymentSession) :
    AttemptMove rt db (beginRetailHostedPayment rt db checkoutPk session).1 := by
  unfold beginRetailHostedPayment
  split
  · exact .none rfl
  · rename_i started attempt hstart
    split
    · exact .start checkoutPk attempt hstart
    · rename_i bound redirect hcreate
      exact .begin checkoutPk started attempt hstart session
        (Inv.createRetailHostedPaymentSession_eq_ok hcreate)

/-- **Moves.** Every operation on payment attempts is such a move. -/
theorem Op.attemptMove (rt : Runtime) (db : Db) (op : Op) (hmoves : op.movesPayments = true) :
    AttemptMove rt db (op.exec rt db) := by
  have hself : AttemptMove rt db db := .none rfl
  -- The operations that move payments; the others are excluded by `hmoves`.
  cases op with
  | startRetailPayment checkoutPk =>
    refine Db.commit_of (fun db' hok => ?_) hself
    obtain ⟨r, hr, rfl⟩ := map_eq_ok.mp hok
    exact .start checkoutPk r.2 hr
  | beginRetailHostedPayment checkoutPk session => exact attemptMove_begin checkoutPk session
  | retryRetailHostedPayment attemptPk session =>
    refine Db.commit_of (fun db' hok => ?_) hself
    obtain ⟨r, hr, rfl⟩ := map_eq_ok.mp hok
    exact .bind attemptPk session (Inv.createRetailHostedPaymentSession_eq_ok hr)
  | completeRetailPayment attemptPk transactionId =>
    exact Db.commit_of (fun db' hok => .complete attemptPk transactionId hok) hself
  | failRetailPayment attemptPk => exact Db.commit_of (fun db' hok => .fail attemptPk hok) hself
  | reconcileRetailPayment attemptPk external =>
    refine Db.commit_of (fun db' hok => ?_) hself
    rcases Inv.reconcile_eq_ok hok with rfl | hok | hok
    · exact hself
    · exact .complete attemptPk _ hok
    · exact .fail attemptPk hok
  | cancelPendingPaymentAttempts orderPk =>
    exact Db.commit_of (fun db' hok => .cancel orderPk hok) hself
  | _ => cases hmoves

/-- A payment that starts adds one attempt, PENDING and without a session. -/
theorem attempts_of_start {checkoutPk : ℕ} {attempt : PaymentAttempt}
    (h : startRetailPayment rt db checkoutPk = .ok (db', attempt)) :
    ∃ o amount, ∃ hpos : 0 < amount,
      db'.paymentAttempts = db.paymentAttempts.insert (newAttempt o amount hpos)
        ∧ attempt = (newAttempt o amount hpos).make db.paymentAttempts.next := by
  obtain ⟨o, -, -, -, -, xs, -, amount, hpos, -, -, hr⟩ := Inv.startRetailPayment_eq_ok h
  obtain ⟨hdb, hattempt⟩ := Prod.mk.inj hr
  exact ⟨o, amount, hpos, by rw [hdb]; rfl, hattempt⟩

end

/-! ### Payment steps -/

/-- The order of a payment was placed on the stock that was held for it. -/
structure Completed (orderPk : ℕ) (db db' : Db) : Prop where
  draft : ∃ o ∈ db.orders, o.pk = orderPk ∧ o.status = .draft
  placed : ∃ o ∈ db'.orders, o.pk = orderPk ∧ o.status = .placed
  promoted : ∀ a ∈ db.orderAllocations orderPk, a.status = .reserved →
    a.reservedUntil ≠ none ∧ clearReservedUntil.apply a ∈ db'.orderAllocations orderPk

/-- No attempt is lost or changes its status, but for a PENDING one; and it only succeeds
    together with its order. -/
def PaymentStep (db db' : Db) : Prop :=
  Table.Evolves (fun p p' => p'.orderId = p.orderId ∧ (p'.status = p.status ∨
    (p.status = .pending ∧ (p'.status = .succeeded → Completed p.orderId db db'))))
    db.paymentAttempts db'.paymentAttempts

/-- The attempt does not change its status unless it was PENDING, and does not succeed. -/
def StaysUnpaid (p p' : PaymentAttempt) : Prop :=
  p'.orderId = p.orderId ∧
    (p'.status = p.status ∨ (p.status = .pending ∧ p'.status ≠ .succeeded))

/-- An attempt left alone stays unpaid. -/
theorem StaysUnpaid.refl (p : PaymentAttempt) : StaysUnpaid p p := ⟨rfl, Or.inl rfl⟩

/-- An attempt stays unpaid through two steps. -/
theorem StaysUnpaid.trans (p q r : PaymentAttempt) (h : StaysUnpaid p q) (h' : StaysUnpaid q r) :
    StaysUnpaid p r := by
  obtain ⟨ho, hst⟩ := h
  obtain ⟨ho', hst'⟩ := h'
  refine ⟨ho'.trans ho, ?_⟩
  rcases hst with hst | ⟨hpend, hne⟩ <;> rcases hst' with hst' | ⟨hpend', hne'⟩
  · exact Or.inl (hst'.trans hst)
  · exact Or.inr ⟨hst ▸ hpend', hne'⟩
  · exact Or.inr ⟨hpend, hst' ▸ hne⟩
  · exact Or.inr ⟨hpend, hne'⟩

/-- No attempt is lost or succeeds. -/
def Unpaying (db db' : Db) : Prop :=
  Table.Evolves StaysUnpaid db.paymentAttempts db'.paymentAttempts

/-- A step that pays nothing is a payment step. -/
theorem Unpaying.step {db db' : Db} (h : Unpaying db db') : PaymentStep db db' :=
  h.mono (fun _ _ ⟨ho, hst⟩ =>
    ⟨ho, hst.imp id (fun ⟨hpend, hne⟩ => ⟨hpend, fun hs => absurd hs hne⟩)⟩)

/-- A step that leaves the attempts alone pays nothing. -/
theorem unpaying_of_eq {db db' : Db} (h : db'.paymentAttempts = db.paymentAttempts) :
    Unpaying db db' := by
  unfold Unpaying
  rw [h]
  exact Table.Evolves.refl StaysUnpaid.refl _

/-- Starting a payment pays nothing. -/
theorem unpaying_start {rt : Runtime} {db db' : Db} {checkoutPk : ℕ} {attempt : PaymentAttempt}
    (hok : startRetailPayment rt db checkoutPk = .ok (db', attempt)) : Unpaying db db' := by
  obtain ⟨o, amount, hpos, hinsert, -⟩ := attempts_of_start hok
  unfold Unpaying
  rw [hinsert]
  exact Table.evolves_insert StaysUnpaid.refl _ _

/-- Binding a session pays nothing. -/
theorem unpaying_bind {db db' : Db} {attemptPk : ℕ} {session : HostedPaymentSession}
    (hok : bindHostedPaymentSession db attemptPk session = .ok db') : Unpaying db db' := by
  obtain ⟨p, hp, -, -, -, -, -, rfl⟩ := Inv.bindHostedPaymentSession_eq_ok.mp hok
  exact Table.evolves_put StaysUnpaid.refl hp rfl ⟨rfl, Or.inl rfl⟩

/-- Failing a payment pays nothing. -/
theorem unpaying_fail {db db' : Db} {attemptPk : ℕ}
    (hok : failRetailPayment db attemptPk = .ok db') : Unpaying db db' := by
  obtain ⟨p, hp, -, hpend, o, -, -, -, -, rfl⟩ := Inv.failRetailPayment_eq_ok.mp hok
  exact Table.evolves_put StaysUnpaid.refl hp rfl ⟨rfl, Or.inr ⟨hpend, by simp⟩⟩

/-- Cancelling PENDING attempts pays nothing. -/
theorem unpaying_cancelPending {db db' : Db} {k : ℕ}
    (hok : cancelPendingPaymentAttemptsForOrder db k = .ok db') : Unpaying db db' := by
  refine Inv.cancelPending_induction (P := Unpaying db) ?_ hok (unpaying_of_eq rfl)
  intro d p hd hp hpend
  exact Table.Evolves.trans StaysUnpaid.trans hd
    (Table.evolves_put StaysUnpaid.refl hp rfl ⟨rfl, Or.inr ⟨hpend, by simp⟩⟩)

namespace Inv

variable {rt : Runtime} {db db' : Db}

/-- Completing a payment places its order on all the stock that was held for it. -/
theorem paymentStep_complete {attemptPk : ℕ} {transactionId : Option String} (h : Inv rt.now db)
    (hok : completeRetailPayment rt db attemptPk transactionId = .ok db') :
    PaymentStep db db' := by
  obtain ⟨p, hp, -, hpend, o, ho, hpk, -, hst, hact, hnull, p', hsucc, rfl⟩ :=
    completeRetailPayment_eq_ok.mp hok
  obtain ⟨deadline, hheld, hlive⟩ := h.live_of_active hp ho hpk hst hpend hact
  have heq := succeeded_eq_ok hsucc
  have hpk' : p'.pk = p.pk := by rw [heq]
  have hpo : p'.orderId = p.orderId := by rw [heq]
  -- The holds end at one deadline, which is ahead, so all of them are promoted.
  have hcompleted : Completed p.orderId db (db.completed rt.now o p') := by
    rw [← hpk]
    refine ⟨⟨o, ho, rfl, hst⟩, ⟨o.asPlaced rt.now none, ?_, rfl, rfl⟩, fun a ha hres => ?_⟩
    · exact (Table.mem_put (r := o.asPlaced rt.now none) ⟨o, ho, rfl⟩).mpr (Or.inl rfl)
    · obtain ⟨hmem, hak⟩ := Db.mem_orderAllocations.mp ha
      have hdl := hheld.deadline a ha hres
      have hactive : activeOf rt.now o.pk a = true :=
        Bool.and_eq_true_iff.mpr ⟨reservedOf_iff.mpr ⟨hak, hres⟩, by
          simp [Allocation.isActive, hres, hdl, hlive]⟩
      refine ⟨by rw [hdl]; exact Option.some_ne_none _, Db.mem_orderAllocations.mpr ⟨?_, hak⟩⟩
      exact Table.mem_modify.mpr ⟨a, hmem, if_pos hactive⟩
  exact Table.evolves_put (fun _ => ⟨rfl, Or.inl rfl⟩) hp hpk'
    ⟨hpo, Or.inr ⟨hpend, fun _ => hcompleted⟩⟩

/-- **Step.** Every operation is a payment step. -/
theorem paymentStep (h : Inv rt.now db) (op : Op) : PaymentStep db (op.exec rt db) := by
  by_cases hmoves : op.movesPayments = true
  · cases op.attemptMove rt db hmoves with
    | none hsame => exact (unpaying_of_eq (by rw [hsame])).step
    | start checkoutPk attempt hok => exact (unpaying_start hok).step
    | begin checkoutPk started attempt hstart session hbind =>
      exact Unpaying.step (Table.Evolves.trans StaysUnpaid.trans
        (unpaying_start hstart) (unpaying_bind hbind))
    | bind attemptPk session hok => exact (unpaying_bind hok).step
    | complete attemptPk transactionId hok => exact h.paymentStep_complete hok
    | fail attemptPk hok => exact (unpaying_fail hok).step
    | cancel orderPk hok => exact (unpaying_cancelPending hok).step
  · exact (unpaying_of_eq ((h.exec op).attempts (by simpa using hmoves))).step

end Inv

/-! ### Payment and order agree -/

/-- The attempts of an order in one status. -/
def Db.attemptsIn (db : Db) (status : PaymentStatus) (orderPk : ℕ) : List PaymentAttempt :=
  (db.orderAttempts orderPk).filter (fun p => p.status = status)

/-- The attempts of an order in a status. -/
theorem Db.mem_attemptsIn {db : Db} {status : PaymentStatus} {k : ℕ} {p : PaymentAttempt} :
    p ∈ db.attemptsIn status k ↔ p ∈ db.orderAttempts k ∧ p.status = status := by
  simp [Db.attemptsIn]

/-- Attempts that are all the same are at most one. -/
theorem attemptsIn_length_le {db : Db} {status : PaymentStatus} {k : ℕ}
    (h : ∀ p ∈ db.orderAttempts k, ∀ q ∈ db.orderAttempts k, p.status = status →
      q.status = status → p = q) : (db.attemptsIn status k).length ≤ 1 := by
  have hnd : ((db.attemptsIn status k).map Row.pk).Nodup :=
    (db.paymentAttempts.select_nodup_pk _).sublist (List.filter_sublist.map _)
  have hone : ∀ p ∈ db.attemptsIn status k, ∀ q ∈ db.attemptsIn status k, p = q :=
    fun p hp q hq => h p (Db.mem_attemptsIn.mp hp).1 q (Db.mem_attemptsIn.mp hq).1
      (Db.mem_attemptsIn.mp hp).2 (Db.mem_attemptsIn.mp hq).2
  -- Two rows would be one row listed twice.
  match hl : db.attemptsIn status k with
  | [] => simp
  | [_] => simp
  | p :: q :: rest =>
    rw [hl] at hnd hone
    have hpq : p = q := hone p (by simp) q (by simp)
    rw [hpq] at hnd
    simp at hnd

/-- **Payment and order agree.** -/
theorem payment_and_order_agree {s : State} (h : Reachable s) :
    (∀ o ∈ s.db.orders,
      (s.db.attemptsIn .pending o.pk).length ≤ 1 ∧ (s.db.attemptsIn .succeeded o.pk).length ≤ 1 ∧
      (o.channel = .retail → o.status.Sold → (s.db.attemptsIn .succeeded o.pk).length = 1) ∧
      (o.channel = .retail → o.status = .draft → s.db.attemptsIn .succeeded o.pk = [])) ∧
    (∀ p ∈ s.db.paymentAttempts, orderTotal (s.db.orderLines p.orderId) = some p.amount ∧
      0 < p.amount ∧ p.amount ≤ maxRetailOrderTotal) ∧
    (∀ ls t, Run SystemStep s ls t → ∀ p ∈ s.db.paymentAttempts, p.status ≠ .pending →
      ∃ p' ∈ t.db.paymentAttempts, p'.pk = p.pk ∧ p'.status = p.status) ∧
    (∀ l t, SystemStep s l t → ∀ p ∈ s.db.paymentAttempts, ∀ p' ∈ t.db.paymentAttempts,
      p'.pk = p.pk → p.status = .pending → p'.status = .succeeded →
        Completed p.orderId s.db t.db) := by
  have hinv := inv_of_reachable h
  -- What one step does to the attempts, from any reachable state.
  have hstep : ∀ {s t : State} {l : Runtime × Op}, Reachable s → SystemStep s l t →
      PaymentStep s.db t.db := by
    rintro s t l hs ⟨hle, rfl⟩
    exact ((inv_of_reachable hs).later hle).paymentStep l.2
  refine ⟨fun o ho => ?_, fun p hp => ?_, fun ls t hrun p hp hst => ?_, ?_⟩
  · have hpay := (hinv.orders o ho).payment
    have hsucc : (s.db.attemptsIn .succeeded o.pk).length ≤ 1 :=
      attemptsIn_length_le hpay.oneSucceeded
    refine ⟨attemptsIn_length_le hpay.onePending, hsucc, fun hch hsold => ?_, fun _ hd => ?_⟩
    · obtain ⟨p, hp, hps⟩ := hpay.paid hch hsold
      have hmem : p ∈ s.db.attemptsIn .succeeded o.pk := Db.mem_attemptsIn.mpr ⟨hp, hps⟩
      have hpos := List.length_pos_of_mem hmem
      omega
    · rw [List.eq_nil_iff_forall_not_mem]
      intro p hp
      obtain ⟨hp, hps⟩ := Db.mem_attemptsIn.mp hp
      exact hpay.unpaid hd p hp hps
  · obtain ⟨o, ho, hpk⟩ := hinv.references.attempt p hp
    have hpay := (hinv.orders o ho).payment
    have hmem : p ∈ s.db.orderAttempts o.pk := Db.mem_orderAttempts.mpr ⟨hp, hpk.symm⟩
    have hamount := hpay.amount p hmem
    obtain ⟨t, ht, -, hmax⟩ := hpay.total (hpay.retail p hmem)
    rw [hamount, Option.some.injEq] at ht
    exact ⟨hpk ▸ hamount, p.amount_pos, ht ▸ hmax⟩
  · -- a terminal status is kept by each step of the run
    have hkept := hrun.invariant (I := fun t => Reachable t ∧
      ∃ p' ∈ t.db.paymentAttempts, p'.pk = p.pk ∧ p'.status = p.status) ?_
      ⟨h, p, hp, rfl, rfl⟩
    · exact hkept.2
    · rintro u l v ⟨hu, q, hq, hqpk, hqst⟩ hl
      refine ⟨hu.step hl, ?_⟩
      obtain ⟨q', hq', hpk', -, hst'⟩ := hstep hu hl q hq
      refine ⟨q', hq', hpk'.trans hqpk, ?_⟩
      rcases hst' with hst' | ⟨hpend, -⟩
      · exact hst'.trans hqst
      · exact absurd (hqst.symm.trans hpend) hst
  · intro l t hl p hp p' hp' hpk hpend hsucc
    obtain ⟨-, hst⟩ := (hstep h hl).rel hp hp' hpk
    rcases hst with hst | ⟨-, hcompleted⟩
    · rw [hst, hpend] at hsucc
      cases hsucc
    · exact hcompleted hsucc

/-- At the end of the day the retail order is PLACED, and its one payment succeeded. -/
theorem payment_and_order_agree_day :
    ((State.init.after Shop.day).db.attemptsIn .succeeded 2).length = 1 ∧
      (State.init.after Shop.day).db.attemptsIn .pending 2 = [] := by
  have hrun : Reachable (State.init.after Shop.day) := reachable_after _ (by decide)
  have hex : ∃ o ∈ (State.init.after Shop.day).db.orders.rows, o.pk = 2 ∧ o.channel = .retail
      ∧ o.status = .placed := by
    decide +kernel
  obtain ⟨o, ho, hpk, hch, hst⟩ := hex
  have hone := ((payment_and_order_agree hrun).1 o ho).2.2.1 hch (Or.inl hst)
  rw [hpk] at hone
  exact ⟨hone, by decide +kernel⟩

end SwedeSweets
