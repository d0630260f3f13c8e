import SwedeSweets.Guarantees.Stock
import SwedeSweets.Retail.Reconciliation

namespace SwedeSweets

open Relational Fallible

/-!
# A batch reconciles its attempts independently

Reconciling an attempt reads and writes its order, that order's allocations and that order's
attempts (`SameOrderRows`), and the database admits one PENDING attempt per order.  So the attempts
of a batch do not meet: each ends as if it alone had been reconciled, in any order of processing
(`batch_reconciliation_isolates`).
-/

/-- The constraint of the same name on the table of attempts. -/
def Db.OnePendingPaymentAttemptPerOrder (db : Db) : Prop :=
  ∀ p ∈ db.paymentAttempts, ∀ q ∈ db.paymentAttempts,
    p.status = .pending → q.status = .pending → p.orderId = q.orderId → p = q

instance (db : Db) : Decidable db.OnePendingPaymentAttemptPerOrder :=
  inferInstanceAs (Decidable (∀ p ∈ db.paymentAttempts, ∀ q ∈ db.paymentAttempts, _))

/-- Two databases agree on the order `k`, its allocations and its payment attempts. -/
structure SameOrderRows (k : ℕ) (db db' : Db) : Prop where
  order : db'.orders.get? k = db.orders.get? k
  allocations : db'.orderAllocations k = db.orderAllocations k
  attempts : db'.orderAttempts k = db.orderAttempts k

namespace SameOrderRows

variable {k : ℕ} {db db' db'' : Db}

/-- The same rows. -/
theorem refl (k : ℕ) (db : Db) : SameOrderRows k db db := ⟨rfl, rfl, rfl⟩

/-- The same rows, the other way. -/
theorem symm (h : SameOrderRows k db db') : SameOrderRows k db' db :=
  ⟨h.order.symm, h.allocations.symm, h.attempts.symm⟩

/-- The same rows, through a third database. -/
theorem trans (h : SameOrderRows k db db') (h' : SameOrderRows k db' db'') : SameOrderRows k db db'' :=
  ⟨h'.order.trans h.order, h'.allocations.trans h.allocations, h'.attempts.trans h.attempts⟩

/-- A write on another order. -/
theorem ofTouches {j : ℕ} (h : Touches j db db') (hk : k ≠ j) : SameOrderRows k db db' :=
  ⟨h.order k hk, h.allocations k hk, h.attempts k hk⟩

/-- The order is on file in both. -/
theorem mem_orders (h : SameOrderRows k db db') {o : Order} (ho : o ∈ db.orders) (hk : o.pk = k) :
    o ∈ db'.orders :=
  (Table.get?_eq_some.mp (h.order.trans (Table.get?_eq_some.mpr ⟨ho, hk⟩))).1

/-- The order's attempts are on file in both. -/
theorem mem_attempts (h : SameOrderRows k db db') {p : PaymentAttempt} (hp : p ∈ db.paymentAttempts)
    (hk : p.orderId = k) : p ∈ db'.paymentAttempts :=
  (Db.mem_orderAttempts.mp (h.attempts ▸ Db.mem_orderAttempts.mpr ⟨hp, hk⟩)).1

/-- The order's allocations are on file in both. -/
theorem mem_allocations (h : SameOrderRows k db db') {a : Allocation} (ha : a ∈ db.allocations)
    (hk : a.orderId = k) : a ∈ db'.allocations :=
  (Db.mem_orderAllocations.mp (h.allocations ▸ Db.mem_orderAllocations.mpr ⟨ha, hk⟩)).1

/-! ### The same writes on both sides -/

/-- Saving one attempt of the order in both. -/
theorem saveAttempt (h : SameOrderRows k db db') {p p' : PaymentAttempt}
    (hp : p ∈ db.paymentAttempts) (hk : p.orderId = k) (hpk : p'.pk = p.pk)
    (hk' : p'.orderId = k) : SameOrderRows k (db.saveAttempt p') (db'.saveAttempt p') := by
  refine ⟨h.order, h.allocations, ?_⟩
  have hput : ∀ d : Db, p ∈ d.paymentAttempts → (d.saveAttempt p').orderAttempts k
      = (d.orderAttempts k).map (fun q => if q.pk = p'.pk then p' else q) :=
    fun d hd => Table.select_put hd hpk.symm (decide_eq_true hk) (decide_eq_true hk')
  rw [hput db hp, hput db' (h.mem_attempts hp hk), h.attempts]

/-- Saving the order in both. -/
theorem saveOrder (h : SameOrderRows k db db') {o o' : Order} (ho : o ∈ db.orders) (hk : o.pk = k)
    (hpk : o'.pk = o.pk) : SameOrderRows k (db.saveOrder o') (db'.saveOrder o') := by
  refine ⟨?_, h.allocations, h.attempts⟩
  have hput : ∀ d : Db, o ∈ d.orders → (d.saveOrder o').orders.get? k = some o' :=
    fun d hd => (Table.get?_put ⟨o, hd, hpk.symm⟩ k).trans (if_pos (hk.symm.trans hpk.symm))
  rw [hput db ho, hput db' (h.mem_orders ho hk)]

/-- Rewriting allocations in both. -/
theorem modifyAllocations (h : SameOrderRows k db db') {p : Allocation → Bool} {u : Edit Allocation}
    (hu : ∀ a, (u.apply a).orderId = a.orderId) :
    SameOrderRows k { db with allocations := db.allocations.modify p u }
      { db' with allocations := db'.allocations.modify p u } := by
  refine ⟨h.order, ?_, h.attempts⟩
  rw [orderAllocations_modify hu k, orderAllocations_modify hu k, h.allocations]

end SameOrderRows

/-! ### One attempt -/

section

variable {rt : Runtime} {provider : PaymentProvider} {db db' d d' : Db} {attemptPk k : ℕ}

/-- What a reconciliation runs is decided by the attempt and the answer for it. -/
theorem reconcileWithProvider_eq_ok :
    reconcileWithProvider rt provider db attemptPk = .ok db' ↔
      ∃ getPayment, provider attemptPk = .ok getPayment ∧
        ∃ p ∈ db.paymentAttempts, p.pk = attemptPk ∧ p.providerPaymentId ≠ "" ∧
          ∃ external, getPayment p.providerPaymentId = .ok external ∧
            external.providerPaymentId = p.providerPaymentId ∧
            ∃ step, reconciliationStep p external = .ok step ∧
              step.run db attemptPk external (completeRetailPayment rt) failRetailPayment
                = .ok db' := by
  unfold reconcileWithProvider reconcileRetailPayment reconcilePaymentAttempt loadForReconciliation
    checkExternalPaymentState rereadAttempt
  simp only [bind_eq_ok, Db.getAttempt_eq_ok, require_eq_ok, exists_const, pure_eq_ok]
  -- The attempt is read three times; it is one row each time.
  constructor
  · rintro ⟨getPayment, hprovider, p, ⟨q, ⟨hq, rfl⟩, hid, rfl⟩, external, hexternal, r,
      ⟨q', ⟨hq', hqq'⟩, -, rfl⟩, hanswer, ⟨a, step⟩, ⟨q'', ⟨hq'', hqq''⟩, step', hstep, heq⟩, hrun⟩
    obtain rfl : q' = q := Table.eq_of_pk_eq (t := db.paymentAttempts) hq' hq hqq'
    obtain rfl : q'' = q' := Table.eq_of_pk_eq (t := db.paymentAttempts) hq'' hq hqq''
    rw [Prod.mk.injEq] at heq
    obtain ⟨rfl, rfl⟩ := heq
    exact ⟨getPayment, hprovider, q'', hq, rfl, hid, external, hexternal, hanswer, step', hstep, hrun⟩
  · rintro ⟨getPayment, hprovider, p, hp, rfl, hid, external, hexternal, hanswer, step, hstep, hrun⟩
    exact ⟨getPayment, hprovider, p, ⟨p, ⟨hp, rfl⟩, hid, rfl⟩, external, hexternal, p,
      ⟨p, ⟨hp, rfl⟩, hid, rfl⟩, hanswer, (p, step), ⟨p, ⟨hp, rfl⟩, step, hstep, rfl⟩, hrun⟩

/-- A reconciliation writes on the order of its attempt only. -/
theorem touches_of_complete {transactionId : Option String}
    (h : completeRetailPayment rt db attemptPk transactionId = .ok db') :
    ∃ p ∈ db.paymentAttempts, p.pk = attemptPk ∧ Touches p.orderId db db' := by
  obtain ⟨p, hp, hpk, -, o, ho, hok, -, -, -, -, p', hsucc, rfl⟩ :=
    Inv.completeRetailPayment_eq_ok.mp h
  have heq := Inv.succeeded_eq_ok hsucc
  have hpromoted : Touches p.orderId db (db.promoted rt.now o.pk) :=
    Touches.modifyAllocations
      (fun a _ ha => (reservedOf_iff.mp (Bool.and_eq_true_iff.mp ha).1).1.trans hok)
      (fun a => ⟨rfl, rfl, rfl⟩)
  have hplaced : Touches p.orderId db
      ((db.promoted rt.now o.pk).saveOrder (o.asPlaced rt.now none)) :=
    hpromoted.trans (Touches.saveOrder hok ⟨o, ho, hok⟩)
  exact ⟨p, hp, hpk, hplaced.trans (Touches.saveAttempt (by rw [heq]) ⟨p, hp, by rw [heq], rfl⟩)⟩

/-- A failed payment touches its own order. -/
theorem touches_of_fail (h : failRetailPayment db attemptPk = .ok db') :
    ∃ p ∈ db.paymentAttempts, p.pk = attemptPk ∧ Touches p.orderId db db' := by
  obtain ⟨p, hp, hpk, -, o, -, hok, -, -, rfl⟩ := Inv.failRetailPayment_eq_ok.mp h
  have hreleased := Inv.touches_releasedTemporary db o.pk
  have hfailed := hreleased.trans (Touches.saveAttempt (p := { p with status := .failed }) hok.symm
    ⟨p, hp, rfl, hok.symm⟩)
  exact ⟨p, hp, hpk, Eq.subst (motive := fun k => Touches k db _) hok hfailed⟩

/-- **Locality.** Completing the payment of an order does the same wherever that order is the
    same. -/
theorem complete_local {transactionId : Option String} {p : PaymentAttempt}
    (hsame : SameOrderRows p.orderId db d) (hp : p ∈ db.paymentAttempts)
    (h : completeRetailPayment rt db p.pk transactionId = .ok db') :
    ∃ d', completeRetailPayment rt d p.pk transactionId = .ok d'
      ∧ SameOrderRows p.orderId db' d' := by
  obtain ⟨q, hq, hqp, hpend, o, ho, hok, hch, hst, ⟨a, ha, hact⟩, hnull, p', hsucc, rfl⟩ :=
    Inv.completeRetailPayment_eq_ok.mp h
  obtain rfl : q = p := Table.eq_of_pk_eq (t := db.paymentAttempts) hq hp hqp
  have heq := Inv.succeeded_eq_ok hsucc
  -- The active hold that lets the payment complete is the order's own.
  have hactive : a.orderId = q.orderId :=
    (reservedOf_iff.mp (Bool.and_eq_true_iff.mp hact).1).1.trans hok
  refine ⟨d.completed rt.now o p', Inv.completeRetailPayment_eq_ok.mpr ⟨q, hsame.mem_attempts hq rfl,
    rfl, hpend, o, hsame.mem_orders ho hok, hok, hch, hst,
    ⟨a, hsame.mem_allocations ha hactive, hact⟩, fun b hb hres => ?_, p', hsucc, rfl⟩, ?_⟩
  · have hbk : b.orderId = q.orderId := (reservedOf_iff.mp hres).1.trans hok
    exact hnull b (hsame.symm.mem_allocations hb hbk) hres
  · have hpromoted : SameOrderRows q.orderId (db.promoted rt.now o.pk) (d.promoted rt.now o.pk) :=
      hsame.modifyAllocations (fun _ => rfl)
    have hplaced : SameOrderRows q.orderId
        ((db.promoted rt.now o.pk).saveOrder (o.asPlaced rt.now none))
        ((d.promoted rt.now o.pk).saveOrder (o.asPlaced rt.now none)) :=
      hpromoted.saveOrder ho hok rfl
    exact hplaced.saveAttempt hq rfl (by rw [heq]) (by rw [heq])


/-- Failing a payment reads and writes its order's rows only. -/
theorem fail_local {p : PaymentAttempt} (hsame : SameOrderRows p.orderId db d)
    (hp : p ∈ db.paymentAttempts) (h : failRetailPayment db p.pk = .ok db') :
    ∃ d', failRetailPayment d p.pk = .ok d' ∧ SameOrderRows p.orderId db' d' := by
  obtain ⟨q, hq, hqp, hpend, o, ho, hok, hch, hst, rfl⟩ := Inv.failRetailPayment_eq_ok.mp h
  obtain rfl : q = p := Table.eq_of_pk_eq (t := db.paymentAttempts) hq hp hqp
  refine ⟨_, Inv.failRetailPayment_eq_ok.mpr ⟨q, hsame.mem_attempts hq rfl, rfl, hpend, o,
    hsame.mem_orders ho hok, hok, hch, hst, rfl⟩, ?_⟩
  have hreleased : SameOrderRows q.orderId (db.releasedTemporary o.pk) (d.releasedTemporary o.pk) :=
    hsame.modifyAllocations (fun _ => rfl)
  exact hreleased.saveAttempt hq rfl rfl rfl

/-- Reconciliation reads and writes its order's rows only. -/
theorem reconcile_local {p : PaymentAttempt} (hsame : SameOrderRows p.orderId db d)
    (hp : p ∈ db.paymentAttempts) (h : reconcileWithProvider rt provider db p.pk = .ok db') :
    ∃ d', reconcileWithProvider rt provider d p.pk = .ok d' ∧ SameOrderRows p.orderId db' d' := by
  obtain ⟨getPayment, hprovider, q, hq, hqp, hid, external, hexternal, hanswer, step, hstep, hrun⟩ :=
    reconcileWithProvider_eq_ok.mp h
  obtain rfl : q = p := Table.eq_of_pk_eq (t := db.paymentAttempts) hq hp hqp
  -- The provider and the step depend on the attempt, which both databases have.
  have hback : ∀ d', step.run d q.pk external (completeRetailPayment rt) failRetailPayment = .ok d' →
      reconcileWithProvider rt provider d q.pk = .ok d' := fun d' hrun' =>
    reconcileWithProvider_eq_ok.mpr ⟨getPayment, hprovider, q, hsame.mem_attempts hq rfl, rfl, hid,
      external, hexternal, hanswer, step, hstep, hrun'⟩
  -- Nothing to do, a paid answer, a failed one.
  cases step with
  | done =>
    rw [ReconciliationStep.run, pure_eq_ok] at hrun
    subst hrun
    exact ⟨d, hback d rfl, hsame⟩
  | onSucceeded =>
    obtain ⟨d', hrun', hsame'⟩ := complete_local hsame hq hrun
    exact ⟨d', hback d' hrun', hsame'⟩
  | onFailed =>
    obtain ⟨d', hrun', hsame'⟩ := fail_local hsame hq hrun
    exact ⟨d', hback d' hrun', hsame'⟩

/-- Also what it raises on is the same on both sides. -/
theorem commit_reconcile_local {p : PaymentAttempt} (hsame : SameOrderRows p.orderId db d)
    (hp : p ∈ db.paymentAttempts) :
    SameOrderRows p.orderId (db.commit (reconcileWithProvider rt provider db p.pk))
      (d.commit (reconcileWithProvider rt provider d p.pk)) := by
  -- A success in one database is a success in the other, so a raise is one too.
  cases hdb : reconcileWithProvider rt provider db p.pk with
  | ok db' =>
    obtain ⟨d', hd, hsame'⟩ := reconcile_local hsame hp hdb
    rw [hd]
    exact hsame'
  | error e =>
    cases hd : reconcileWithProvider rt provider d p.pk with
    | ok d' =>
      obtain ⟨db', hdb', -⟩ := reconcile_local hsame.symm (hsame.mem_attempts hp rfl) hd
      rw [hdb] at hdb'
      cases hdb'
    | error e' => exact hsame

/-- What a reconciliation commits touches one order. -/
theorem touches_reconcile {p : PaymentAttempt} (hp : p ∈ db.paymentAttempts) :
    Touches p.orderId db (db.commit (reconcileWithProvider rt provider db p.pk)) := by
  refine Db.commit_of (fun db' h => ?_) (Touches.refl _ _)
  obtain ⟨-, -, -, -, -, -, external, -, -, step, -, hrun⟩ := reconcileWithProvider_eq_ok.mp h
  have hown : ∀ {d : Db}, (∃ q ∈ db.paymentAttempts, q.pk = p.pk ∧ Touches q.orderId db d) →
      Touches p.orderId db d := by
    rintro d ⟨q, hq, hqp, htouch⟩
    rwa [Table.eq_of_pk_eq (t := db.paymentAttempts) hq hp hqp] at htouch
  cases step with
  | done =>
    rw [ReconciliationStep.run, pure_eq_ok] at hrun
    exact hrun ▸ Touches.refl _ _
  | onSucceeded => exact hown (touches_of_complete hrun)
  | onFailed => exact hown (touches_of_fail hrun)

/-- An attempt without a provider payment id is not touched. -/
theorem unbound_kept_reconcile {a : PaymentAttempt} (ha : a ∈ db.paymentAttempts)
    (hid : a.providerPaymentId = "") (h : reconcileWithProvider rt provider db attemptPk = .ok db') :
    a ∈ db'.paymentAttempts := by
  obtain ⟨-, -, p, hp, rfl, hpid, external, -, -, step, -, hrun⟩ := reconcileWithProvider_eq_ok.mp h
  -- The reconciled attempt has a session, so it is another row.
  have hne : ∀ q ∈ db.paymentAttempts, q.pk = p.pk → a.pk ≠ q.pk := by
    intro q hq hqp hapk
    have hap : a = p := Table.eq_of_pk_eq (t := db.paymentAttempts) ha hp (hapk.trans hqp)
    exact hpid (hap ▸ hid)
  cases step with
  | done =>
    rw [ReconciliationStep.run, pure_eq_ok] at hrun
    exact hrun ▸ ha
  | onSucceeded =>
    obtain ⟨q, hq, hqp, -, o, -, -, -, -, -, -, q', hsucc, rfl⟩ :=
      Inv.completeRetailPayment_eq_ok.mp hrun
    have hpk : q'.pk = q.pk := by rw [Inv.succeeded_eq_ok hsucc]
    exact Table.mem_put_of_ne ha (fun hapk => hne q hq hqp (hapk.trans hpk))
  | onFailed =>
    obtain ⟨q, hq, hqp, -, o, -, -, -, -, rfl⟩ := Inv.failRetailPayment_eq_ok.mp hrun
    exact Table.mem_put_of_ne ha (hne q hq hqp)

/-! ### The loop -/

/-- The body of the loop commits a reconciliation, or nothing. -/
theorem reconcileAttempt_cases (rt : Runtime) (provider : PaymentProvider) (db : Db)
    (attemptId : ℕ) :
    (reconcileAttempt rt provider db attemptId).1 = db
      ∨ reconcileWithProvider rt provider db attemptId
        = .ok (reconcileAttempt rt provider db attemptId).1 := by
  unfold reconcileAttempt
  split
  · exact Or.inl rfl
  · split
    · exact Or.inl rfl
    · split
      · exact Or.inl rfl
      · split
        · exact Or.inl rfl
        · rename_i db' hok
          split <;> exact Or.inr hok

/-- On a PENDING attempt it does what reconciling this attempt alone does. -/
theorem reconcileAttempt_pending {p : PaymentAttempt} (hp : p ∈ db.paymentAttempts)
    (hpend : p.status = .pending) :
    (reconcileAttempt rt provider db p.pk).1
      = db.commit (reconcileWithProvider rt provider db p.pk) := by
  have hget : db.getAttempt p.pk = .ok p := Db.getAttempt_eq_ok.mpr ⟨hp, rfl⟩
  have hstatus : ¬ p.status ≠ .pending := not_not_intro hpend
  unfold reconcileAttempt
  simp only [hget, if_neg hstatus]
  -- Whatever the summary records, the database is the committed one.
  cases hr : reconcileWithProvider rt provider db p.pk with
  | error e =>
    split <;> rfl
  | ok db' =>
    obtain ⟨-, -, q, hq, hqp, hid, -⟩ := reconcileWithProvider_eq_ok.mp hr
    rw [Table.eq_of_pk_eq (t := db.paymentAttempts) hq hp hqp] at hid
    rw [if_neg hid]
    simp only
    split <;> rfl

/-- The database after the loop, when nobody else writes. -/
theorem reconcileAttempts_cons (attemptId : ℕ) (attemptIds : List ℕ) :
    (reconcileAttempts rt provider (fun _ d => d) (attemptId :: attemptIds) db).1
      = (reconcileAttempts rt provider (fun _ d => d) attemptIds
          (reconcileAttempt rt provider db attemptId).1).1 := rfl

/-- **Isolation.** PENDING attempts of different orders, processed one after the other, leave
    each order as reconciling its attempt alone does, and every other order as it was. -/
theorem reconcileAttempts_isolates {ps : List PaymentAttempt}
    (hnd : (ps.map PaymentAttempt.orderId).Nodup)
    (hps : ∀ p ∈ ps, p ∈ db.paymentAttempts ∧ p.status = .pending) :
    (∀ p ∈ ps, SameOrderRows p.orderId (db.commit (reconcileWithProvider rt provider db p.pk))
        (reconcileAttempts rt provider (fun _ d => d) (ps.map PaymentAttempt.pk) db).1)
      ∧ ∀ k, k ∉ ps.map PaymentAttempt.orderId → SameOrderRows k db
        (reconcileAttempts rt provider (fun _ d => d) (ps.map PaymentAttempt.pk) db).1 := by
  induction ps generalizing db with
  | nil => exact ⟨fun p hp => (List.not_mem_nil hp).elim, fun k _ => SameOrderRows.refl k db⟩
  | cons p ps ih =>
    rw [List.map_cons, List.nodup_cons] at hnd
    obtain ⟨hfresh, hnd⟩ := hnd
    obtain ⟨hp, hpend⟩ := hps p (List.mem_cons_self ..)
    -- reconciling `p` writes on its own order, which no later attempt belongs to
    have hfirst : (reconcileAttempt rt provider db p.pk).1
        = db.commit (reconcileWithProvider rt provider db p.pk) := reconcileAttempt_pending hp hpend
    have htouch : Touches p.orderId db (db.commit (reconcileWithProvider rt provider db p.pk)) :=
      touches_reconcile hp
    have hother : ∀ k, k ≠ p.orderId →
        SameOrderRows k db (db.commit (reconcileWithProvider rt provider db p.pk)) :=
      fun k hk => SameOrderRows.ofTouches htouch hk
    have hqne : ∀ q ∈ ps, q.orderId ≠ p.orderId :=
      fun q hq he => hfresh (he ▸ List.mem_map_of_mem hq)
    rw [List.map_cons, List.map_cons, reconcileAttempts_cons, hfirst]
    have hrest : ∀ q ∈ ps, q ∈ (db.commit (reconcileWithProvider rt provider db p.pk)).paymentAttempts
        ∧ q.status = .pending := by
      intro q hq
      obtain ⟨hqdb, hqpend⟩ := hps q (List.mem_cons_of_mem _ hq)
      exact ⟨(hother q.orderId (hqne q hq)).mem_attempts hqdb rfl, hqpend⟩
    obtain ⟨halone, hframe⟩ := ih hnd hrest
    refine ⟨List.forall_mem_cons.mpr ⟨hframe p.orderId hfresh, fun q hq => ?_⟩, fun k hk => ?_⟩
    · have hqdb := (hps q (List.mem_cons_of_mem _ hq)).1
      exact (commit_reconcile_local (hother q.orderId (hqne q hq)) hqdb).trans (halone q hq)
    · rw [List.mem_cons, not_or] at hk
      exact (hother k hk.1).trans (hframe k hk.2)

/-- The loop leaves an attempt without a session as it is. -/
theorem unbound_kept {a : PaymentAttempt} (hid : a.providerPaymentId = "") (attemptIds : List ℕ)
    (ha : a ∈ db.paymentAttempts) :
    a ∈ (reconcileAttempts rt provider (fun _ d => d) attemptIds db).1.paymentAttempts := by
  induction attemptIds generalizing db with
  | nil => exact ha
  | cons attemptId attemptIds ih =>
    rw [reconcileAttempts_cons]
    refine ih ?_
    rcases reconcileAttempt_cases rt provider db attemptId with hsame | hok
    · rw [hsame]
      exact ha
    · exact unbound_kept_reconcile ha hid hok

end

/-! ### Counting -/

/-- The attempts a summary has under some heading. -/
def PaymentReconciliationSummary.classified (s : PaymentReconciliationSummary) : ℕ :=
  s.succeeded + s.failed + s.pending + s.cancelled + s.errors + s.unresolved

open PaymentReconciliationSummary in
/-- **Step.** Every outcome is counted under exactly one heading, or skipped as settled. -/
theorem classified_count (s : PaymentReconciliationSummary) (outcome : AttemptOutcome) :
    (s.count outcome).classified + [outcome].count .settled = s.classified + 1
      ∧ (s.count outcome).selected = s.selected := by
  cases outcome with
  | reconciled status => cases status <;> simp [count, classified] <;> omega
  | _ => simp [count, classified] <;> omega

/-- Each outcome but a settlement adds one to the classified ones. -/
theorem classified_foldl (s : PaymentReconciliationSummary) (outcomes : List AttemptOutcome) :
    (outcomes.foldl .count s).classified + outcomes.count .settled
        = s.classified + outcomes.length
      ∧ (outcomes.foldl .count s).selected = s.selected := by
  induction outcomes generalizing s with
  | nil => exact ⟨rfl, rfl⟩
  | cons outcome outcomes ih =>
    obtain ⟨hcount, hselected⟩ := classified_count s outcome
    obtain ⟨htail, hkept⟩ := ih (s.count outcome)
    rw [List.foldl_cons, List.length_cons, ← List.singleton_append, List.count_append]
    exact ⟨by omega, hkept.trans hselected⟩

/-- Each id has one outcome. -/
theorem length_reconcileAttempts (rt : Runtime) (provider : PaymentProvider)
    (meanwhile : ℕ → Db → Db) (attemptIds : List ℕ) (db : Db) :
    (reconcileAttempts rt provider meanwhile attemptIds db).2.length = attemptIds.length := by
  induction attemptIds generalizing db with
  | nil => rfl
  | cons attemptId attemptIds ih => exact congrArg (· + 1) (ih _)

/-- **Batch.** Let the ids of the pending retail attempts be processed in any order, while nobody
    else writes: every selected attempt, its order and its reservations end as reconciling that
    attempt alone leaves them, and attempts without a provider payment id are not touched.  Whatever
    others write in between, every selected attempt is classified once or skipped as settled. -/
theorem batch_reconciliation_isolates (rt : Runtime) (provider : PaymentProvider) {db : Db}
    (hone : db.OnePendingPaymentAttemptPerOrder) {attemptIds : List ℕ}
    (hids : attemptIds.Perm (listPendingPaymentAttemptIds db .retail)) :
    (∀ p ∈ db.paymentAttempts, p.pk ∈ attemptIds →
      SameOrderRows p.orderId (db.commit (reconcileWithProvider rt provider db p.pk))
        (reconcileSelected rt provider (fun _ d => d) attemptIds db).1)
    ∧ (∀ p ∈ db.paymentAttempts, p.providerPaymentId = "" →
      p ∈ (reconcileSelected rt provider (fun _ d => d) attemptIds db).1.paymentAttempts
        ∧ (p.pk ∈ attemptIds →
          SameOrderRows p.orderId db (reconcileSelected rt provider (fun _ d => d) attemptIds db).1))
    ∧ ∀ meanwhile, let r := reconcilePendingRetailPayments rt provider meanwhile db
      r.2.2.selected = (listPendingPaymentAttemptIds db .retail).length
        ∧ r.2.2.classified + r.2.1.count .settled = r.2.2.selected := by
  -- the selected attempts, in the order they are processed
  obtain ⟨ps, rfl, hperm⟩ : ∃ ps : List PaymentAttempt, attemptIds = ps.map PaymentAttempt.pk
      ∧ ps.Perm (db.paymentAttempts.select (fun a => a.status = .pending
        && (db.orders.get? a.orderId).any (fun o => o.channel = .retail))) := by
    have hcomp := congrFun (congrFun (List.eq_map_comp_perm PaymentAttempt.pk) attemptIds)
      (db.paymentAttempts.select (fun a => a.status = .pending
        && (db.orders.get? a.orderId).any (fun o => o.channel = .retail)))
    exact hcomp.mpr hids
  have hps : ∀ p ∈ ps, p ∈ db.paymentAttempts ∧ p.status = .pending := by
    intro p hp
    obtain ⟨hp, hselected⟩ := Table.mem_select.mp (hperm.mem_iff.mp hp)
    exact ⟨hp, of_decide_eq_true (Bool.and_eq_true_iff.mp hselected).1⟩
  have hnd : (ps.map PaymentAttempt.orderId).Nodup := by
    have hpks := (hperm.map PaymentAttempt.pk).nodup_iff.mpr (db.paymentAttempts.select_nodup_pk _)
    refine List.Nodup.map_on (fun p hp q hq he => ?_) (List.Nodup.of_map _ hpks)
    exact hone p (hps p hp).1 q (hps q hq).1 (hps p hp).2 (hps q hq).2 he
  have hmem : ∀ p ∈ db.paymentAttempts, p.pk ∈ ps.map PaymentAttempt.pk → p ∈ ps := by
    intro p hp hpk
    obtain ⟨q, hq, hqp⟩ := List.mem_map.mp hpk
    exact Table.eq_of_pk_eq (t := db.paymentAttempts) (hps q hq).1 hp hqp ▸ hq
  have halone : ∀ p ∈ ps,
      SameOrderRows p.orderId (db.commit (reconcileWithProvider rt provider db p.pk))
        (reconcileAttempts rt provider (fun _ d => d) (ps.map PaymentAttempt.pk) db).1 :=
    (reconcileAttempts_isolates hnd hps).1
  refine ⟨fun p hp hpk => halone p (hmem p hp hpk), fun p hp hid => ⟨unbound_kept hid _ hp,
    fun hpk => ?_⟩, fun meanwhile => ?_⟩
  · -- alone, it raises
    have hraises : db.commit (reconcileWithProvider rt provider db p.pk) = db := by
      cases hr : reconcileWithProvider rt provider db p.pk with
      | error e => rfl
      | ok db' =>
        obtain ⟨-, -, q, hq, hqp, hqid, -⟩ := reconcileWithProvider_eq_ok.mp hr
        exact absurd hid (Table.eq_of_pk_eq (t := db.paymentAttempts) hq hp hqp ▸ hqid)
    have hsame := halone p (hmem p hp hpk)
    rwa [hraises] at hsame
  · obtain ⟨hcount, hselected⟩ := classified_foldl
      (.zero (listPendingPaymentAttemptIds db .retail).length)
      (reconcileAttempts rt provider meanwhile (listPendingPaymentAttemptIds db .retail) db).2
    rw [length_reconcileAttempts] at hcount
    refine ⟨hselected, hcount.trans ?_⟩
    exact (Nat.zero_add _).trans hselected.symm

namespace Shop

/-- The payment of the morning and a second one are bound to sessions of the provider, a third one
    is not bound yet. -/
def threePayments : Db := (State.init.after (morning ++
  [ (runtime 4, .retryRetailHostedPayment 1 ⟨"tr_1", "checkout"⟩),
    (runtime 5, .createPendingRetailOrder buyer [⟨2, 2⟩]),
    (runtime 6, .startRetailPayment 2),
    (runtime 7, .retryRetailHostedPayment 2 ⟨"tr_2", "checkout"⟩),
    (runtime 8, .createPendingRetailOrder buyer [⟨2, 2⟩]),
    (runtime 9, .startRetailPayment 3) ])).db

/-- The provider reports the first one paid, and is not available for others. -/
def flakyProvider : PaymentProvider := fun _ => .ok (fun providerPaymentId =>
  if providerPaymentId = "tr_1" then .ok ⟨"tr_1", .succeeded, some "tx_1", none⟩
  else .error (.runtimeError "SumUp temporarily unavailable"))

end Shop

/-- Last in line behind one without a provider id and one the provider fails on, the first payment
    is completed. -/
theorem batch_reconciliation_isolates_shop :
    SameOrderRows 2
      (Shop.threePayments.commit
        (reconcileWithProvider (Shop.runtime 10) Shop.flakyProvider Shop.threePayments 1))
      (reconcileSelected (Shop.runtime 10) Shop.flakyProvider (fun _ d => d) [3, 2, 1]
        Shop.threePayments).1
    ∧ (reconcileWithProvider (Shop.runtime 10) Shop.flakyProvider Shop.threePayments 1).isOk = true
    ∧ (reconcilePendingRetailPayments (Shop.runtime 10) Shop.flakyProvider (fun _ d => d)
        Shop.threePayments).2.2 = ⟨3, 2, 1, 0, 0, 0, 1, 1⟩ := by
  have hfirst : ∃ p ∈ Shop.threePayments.paymentAttempts, p.pk = 1 ∧ p.orderId = 2 := by
    decide +kernel
  obtain ⟨p, hp, hpk, hpo⟩ := hfirst
  have hids : ([3, 2, 1] : List ℕ).Perm (listPendingPaymentAttemptIds Shop.threePayments .retail) := by
    decide +kernel
  have hone : Shop.threePayments.OnePendingPaymentAttemptPerOrder := by decide +kernel
  have hisolated := (batch_reconciliation_isolates (Shop.runtime 10) Shop.flakyProvider hone hids).1
    p hp (by rw [hpk]; decide)
  rw [hpk, hpo] at hisolated
  exact ⟨hisolated, by decide +kernel, by decide +kernel⟩

end SwedeSweets
