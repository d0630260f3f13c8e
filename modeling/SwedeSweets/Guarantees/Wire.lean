import SwedeSweets.Guarantees.BatchReconciliation
import SwedeSweets.Guarantees.Payments
import SwedeSweets.Guarantees.SumUp
import SwedeSweets.Retail.HostedPayments

namespace SwedeSweets

open Relational Fallible Transition

/-!
# The shop on the wire

What reaches the shop from outside: its own operations, SumUp's webhook, customers who begin,
retry or resume a payment, and the job that reconciles pending payments.  HTTP answers whatever it
likes, each call in its own way, and anyone may call the webhook.

* `WireStep` — one such call;
* `WireEvent.simulated` — every call does what some operations of the system do, so the runs of
  the wire are runs of the system;
* `PaidAt` — SumUp says that a checkout is paid;
* `sold_only_if_paid` — no retail order is sold before SumUp has said so of its own checkout.
-/

/-- The operations that take a payment as settled on somebody's word. -/
def Op.reportsPaid : Op → Bool
  | .completeRetailPayment .. | .reconcileRetailPayment .. => true
  | _ => false

/-- One call from outside. -/
inductive WireEvent where
  | operation (op : Op) (h : op.reportsPaid = false)
  | begin (http : Http) (urls : ReturnUrls) (checkoutPk : ℕ)
  | retry (http : Http) (urls : ReturnUrls) (attemptPk : ℕ)
  | recover (http : Http) (attemptPk : ℕ)
  | reconcilePending (http : ℕ → Http)
  | webhook (http : Http) (request : WebhookRequest)

namespace WireEvent

/-- The database after a call. -/
def exec (rt : Runtime) (settings : SumUpSettings) (db : Db) : WireEvent → Db
  | .operation op _ => op.exec rt db
  | .begin http urls checkoutPk => (beginWithProvider rt settings http urls db checkoutPk).1
  | .retry http urls attemptPk =>
      db.commit ((retryWithProvider settings http urls db attemptPk).map Prod.fst)
  | .recover http attemptPk =>
      db.commit ((recoverWithProvider rt (sumUpPayments settings (fun _ => http)) db attemptPk).map
        Prod.fst)
  | .reconcilePending http =>
      (reconcilePendingRetailPayments rt (sumUpPayments settings http) (fun _ db => db) db).1
  | .webhook http request => (sumupWebhook rt settings http db request).1

/-- The HTTP in which a call asks for the state of an attempt's checkout. -/
def asks (attemptPk : ℕ) : WireEvent → Option Http
  | .recover http _ => some http
  | .reconcilePending http => some (http attemptPk)
  | .webhook http _ => some http
  | _ => none

end WireEvent

/-- One call at a clock that is not earlier. -/
def WireStep (settings : SumUpSettings) (s : State) (l : Runtime × WireEvent) (t : State) : Prop :=
  s.clock ≤ l.1.now ∧ t = ⟨l.1.now, l.2.exec l.1 settings s.db⟩

/-- SumUp, asked with the configured credentials, says that a checkout is paid. -/
def PaidAt (settings : SumUpSettings) (http : Http) (id transactionId : String) : Prop :=
  ∃ provider, getDefaultHostedPaymentProvider settings = .ok provider ∧
    ∃ response : JsonObject, http (provider.checkoutRequest id) = .body (.value (.object response)) ∧
      Json.string? (response.get "id") = some id ∧
      Json.string? (response.get "status") = some "PAID" ∧
      Json.text? (response.get "transaction_id") = some transactionId

/-! ### Simulation -/

/-- Some operations at one time lead from one database to the other. -/
def Simulated (rt : Runtime) (db db' : Db) : Prop :=
  ∃ ops : List Op, ops.foldl (fun db op => op.exec rt db) db = db'

section

variable {rt : Runtime} {settings : SumUpSettings} {http : Http} {urls : ReturnUrls}
  {provider : PaymentProvider} {db db' db'' : Db} {attemptPk : ℕ}

theorem Simulated.refl (rt : Runtime) (db : Db) : Simulated rt db db := ⟨[], rfl⟩

theorem Simulated.op (rt : Runtime) (db : Db) (op : Op) : Simulated rt db (op.exec rt db) :=
  ⟨[op], rfl⟩

theorem Simulated.trans (h : Simulated rt db db') (h' : Simulated rt db' db'') :
    Simulated rt db db'' := by
  obtain ⟨ops, rfl⟩ := h
  obtain ⟨ops', rfl⟩ := h'
  exact ⟨ops ++ ops', List.foldl_append ..⟩

/-- A reconciliation that goes through is that operation, with what the provider said. -/
theorem reconcile_of_ok (h : reconcileWithProvider rt provider db attemptPk = .ok db') :
    ∃ external, (Op.reconcileRetailPayment attemptPk external).exec rt db = db' := by
  unfold reconcileWithProvider at h
  simp only [bind_eq_ok] at h
  obtain ⟨-, -, -, -, external, -, h⟩ := h
  refine ⟨external, ?_⟩
  show db.commit (reconcileRetailPayment rt db attemptPk external) = db'
  rw [h]
  rfl

/-- A session made at the provider is one the operation accepts. -/
theorem createSession_of_ok {r : Db × RetailPaymentRedirect}
    (h : createSessionWithProvider settings http urls db attemptPk = .ok r) :
    ∃ session, createRetailHostedPaymentSession db attemptPk session = .ok r := by
  unfold createSessionWithProvider at h
  simp only [bind_eq_ok] at h
  obtain ⟨-, -, -, -, session, -, h⟩ := h
  exact ⟨session, h⟩

/-- Beginning or retrying a payment at SumUp is an operation, or nothing. -/
theorem begin_is_op (rt : Runtime) (settings : SumUpSettings) (http : Http) (urls : ReturnUrls)
    (db : Db) (checkoutPk : ℕ) :
    (beginWithProvider rt settings http urls db checkoutPk).1 = db ∨
      ∃ op : Op, op.reportsPaid = false ∧
        op.exec rt db = (beginWithProvider rt settings http urls db checkoutPk).1 := by
  unfold beginWithProvider
  split
  · exact Or.inl rfl
  -- the attempt is committed before the provider is called
  · rename_i started attempt hstart
    right
    split
    · refine ⟨.startRetailPayment checkoutPk, rfl, ?_⟩
      show db.commit ((startRetailPayment rt db checkoutPk).map Prod.fst) = started
      rw [hstart]
      rfl
    · rename_i bound redirect hcreate
      obtain ⟨session, hsession⟩ := createSession_of_ok hcreate
      refine ⟨.beginRetailHostedPayment checkoutPk session, rfl, ?_⟩
      show (beginRetailHostedPayment rt db checkoutPk session).1 = bound
      unfold beginRetailHostedPayment
      simp only [hstart, hsession]

/-- A retried session is one operation, or nothing. -/
theorem retry_is_op (rt : Runtime) (settings : SumUpSettings) (http : Http) (urls : ReturnUrls)
    (db : Db) (attemptPk : ℕ) :
    db.commit ((retryWithProvider settings http urls db attemptPk).map Prod.fst) = db ∨
      ∃ op : Op, op.reportsPaid = false ∧ op.exec rt db
        = db.commit ((retryWithProvider settings http urls db attemptPk).map Prod.fst) := by
  cases hretry : retryWithProvider settings http urls db attemptPk with
  | error e => exact Or.inl rfl
  | ok r =>
    right
    obtain ⟨session, hsession⟩ := createSession_of_ok hretry
    refine ⟨.retryRetailHostedPayment attemptPk session, rfl, ?_⟩
    show db.commit ((createRetailHostedPaymentSession db attemptPk session).map Prod.fst) = _
    rw [hsession]

/-- A recovery reconciles the attempt, or changes nothing. -/
theorem recover_cases {r : Db × RetailPaymentRecovery}
    (h : recoverWithProvider rt provider db attemptPk = .ok r) :
    r.1 = db ∨ reconcileWithProvider rt provider db attemptPk = .ok r.1 := by
  unfold recoverWithProvider at h
  simp only [bind_eq_ok] at h
  obtain ⟨attempt, hget, h⟩ := h
  -- a recovery that cannot ask the provider changes nothing
  split at h
  · rw [pure_eq_ok] at h
    exact Or.inl (by rw [← h])
  · split at h
    · rename_i external hask
      unfold recoverRetailPayment at h
      simp only [bind_eq_ok] at h
      obtain ⟨attempt', -, h⟩ := h
      split at h
      · rw [pure_eq_ok] at h
        exact Or.inl (by rw [← h])
      · split at h
        · rename_i reconciled hreconcile
          simp only [bind_eq_ok, pure_eq_ok] at h
          obtain ⟨-, -, rfl⟩ := h
          unfold askProvider at hask
          simp only [bind_eq_ok] at hask
          obtain ⟨getPayment, hprovider, loaded, hload, hanswer⟩ := hask
          right
          unfold reconcileWithProvider
          simp only [bind_eq_ok]
          exact ⟨getPayment, hprovider, loaded, hload, external, hanswer, hreconcile⟩
        · simp only [bind_eq_ok, pure_eq_ok] at h
          obtain ⟨-, -, rfl⟩ := h
          exact Or.inl rfl
    · rw [pure_eq_ok] at h
      exact Or.inl (by rw [← h])

/-- A reconciled checkout is one reconciled attempt that carries the id. -/
theorem reconcileCheckout_cases (rt : Runtime) (provider : PaymentProvider) (db : Db)
    (id : String) :
    (reconcileCheckout rt provider db id).1 = db ∨ ∃ p ∈ db.paymentAttempts,
      p.providerPaymentId = id ∧
        reconcileWithProvider rt provider db p.pk = .ok (reconcileCheckout rt provider db id).1 := by
  unfold reconcileCheckout
  split
  · exact Or.inl rfl
  · split
    · exact Or.inl rfl
    · rename_i attempt hselect
      have hmem : attempt ∈ db.paymentAttempts.select (fun a => a.providerPaymentId = id) := by
        rw [hselect]
        exact List.mem_singleton.mpr rfl
      obtain ⟨hp, hid⟩ := Table.mem_select.mp hmem
      split
      · exact Or.inl rfl
      · rename_i db' hok
        exact Or.inr ⟨attempt, hp, of_decide_eq_true hid, hok⟩
    · exact Or.inl rfl

/-- A notification reconciles the attempt of the checkout it names, or changes nothing. -/
theorem webhook_cases (rt : Runtime) (settings : SumUpSettings) (http : Http) (db : Db)
    (request : WebhookRequest) :
    (sumupWebhook rt settings http db request).1 = db ∨ ∃ p ∈ db.paymentAttempts,
      reconcileWithProvider rt (sumUpPayments settings (fun _ => http)) db p.pk
        = .ok (sumupWebhook rt settings http db request).1 := by
  unfold sumupWebhook
  split
  · exact Or.inl rfl
  · split
    · exact Or.inl rfl
    · exact Or.inl rfl
    · exact Or.inl rfl
    · split
      · exact Or.inl rfl
      · simp only
        split
        · exact Or.inl rfl
        · rename_i id _
          refine (reconcileCheckout_cases rt _ db id).imp_right ?_
          rintro ⟨p, hp, -, hok⟩
          exact ⟨p, hp, hok⟩
    · exact Or.inl rfl

/-! ### Who was paid -/

/-- The attempts that are SUCCEEDED afterwards were so before, or have the evidence `E`. -/
def PaysOnly (E : PaymentAttempt → Prop) (db db' : Db) : Prop :=
  ∀ a ∈ db'.paymentAttempts, a.status = .succeeded → a ∈ db.paymentAttempts ∨ E a

theorem PaysOnly.ofEq {E : PaymentAttempt → Prop} (h : db'.paymentAttempts = db.paymentAttempts) :
    PaysOnly E db db' := fun _ ha _ => Or.inl (h ▸ ha)

theorem PaysOnly.trans {E : PaymentAttempt → Prop} (h : PaysOnly E db db')
    (h' : PaysOnly E db' db'') : PaysOnly E db db'' :=
  fun a ha hst => (h' a ha hst).elim (fun ha => h a ha hst) Or.inr

/-- Saving an attempt that did not succeed. -/
theorem PaysOnly.save {E : PaymentAttempt → Prop} {p : PaymentAttempt} (hp : p.status ≠ .succeeded)
    (h : db'.paymentAttempts = db.paymentAttempts.put p) : PaysOnly E db db' := by
  intro a ha hst
  rw [h] at ha
  rcases Table.of_mem_put ha with rfl | ⟨ha, -⟩
  · exact absurd hst hp
  · exact Or.inl ha

/-- A new attempt is pending. -/
theorem PaysOnly.start {E : PaymentAttempt → Prop} {checkoutPk : ℕ} {r : Db × PaymentAttempt}
    (h : startRetailPayment rt db checkoutPk = .ok r) : PaysOnly E db r.1 := by
  obtain ⟨o, amount, hpos, hattempts, -⟩ := attempts_of_start h
  intro a ha hst
  rw [hattempts] at ha
  rcases Table.mem_insert.mp ha with ha | rfl
  · exact Or.inl ha
  · cases hst

/-- A bound attempt keeps its status. -/
theorem PaysOnly.bind {E : PaymentAttempt → Prop} {session : HostedPaymentSession}
    (h : bindHostedPaymentSession db attemptPk session = .ok db') : PaysOnly E db db' := by
  obtain ⟨p, -, -, hpend, -, -, -, rfl⟩ := Inv.bindHostedPaymentSession_eq_ok.mp h
  refine PaysOnly.save (p := { p with providerPaymentId := session.providerPaymentId }) ?_ rfl
  show p.status ≠ .succeeded
  rw [hpend]
  simp

/-- A failed attempt has not succeeded. -/
theorem PaysOnly.fail {E : PaymentAttempt → Prop} (h : failRetailPayment db attemptPk = .ok db') :
    PaysOnly E db db' := by
  obtain ⟨p, -, -, -, o, -, -, -, -, rfl⟩ := Inv.failRetailPayment_eq_ok.mp h
  exact PaysOnly.save (p := { p with status := .failed }) (by simp) rfl

/-- Cancelled attempts have not succeeded. -/
theorem PaysOnly.cancel {E : PaymentAttempt → Prop} {orderPk : ℕ}
    (h : cancelPendingPaymentAttemptsForOrder db orderPk = .ok db') : PaysOnly E db db' := by
  refine Inv.cancelPending_induction (P := PaysOnly E db) (fun d p hd _ _ => hd.trans ?_) h
    (PaysOnly.ofEq rfl)
  exact PaysOnly.save (p := { p with status := .cancelled }) (by simp) rfl

/-- An operation that reports nothing as paid pays for nothing. -/
theorem Op.paysOnly {E : PaymentAttempt → Prop} (hinv : Inv rt.now db) {op : Op}
    (hop : op.reportsPaid = false) : PaysOnly E db (op.exec rt db) := by
  by_cases hmoves : op.movesPayments = true
  · have hself : PaysOnly E db db := PaysOnly.ofEq rfl
    -- what may move a payment without a report of the provider
    cases op with
    | startRetailPayment checkoutPk =>
      refine Db.commit_of (fun db' hok => ?_) hself
      obtain ⟨r, hr, rfl⟩ := map_eq_ok.mp hok
      exact PaysOnly.start hr
    | beginRetailHostedPayment checkoutPk session =>
      show PaysOnly E db (SwedeSweets.beginRetailHostedPayment rt db checkoutPk session).1
      unfold SwedeSweets.beginRetailHostedPayment
      split
      · exact hself
      · rename_i started attempt hstart
        have hstarted : PaysOnly E db started := PaysOnly.start hstart
        split
        · exact hstarted
        · rename_i bound redirect hcreate
          exact hstarted.trans (PaysOnly.bind (Inv.createRetailHostedPaymentSession_eq_ok hcreate))
    | retryRetailHostedPayment attemptPk session =>
      refine Db.commit_of (fun db' hok => ?_) hself
      obtain ⟨r, hr, rfl⟩ := map_eq_ok.mp hok
      exact PaysOnly.bind (Inv.createRetailHostedPaymentSession_eq_ok hr)
    | failRetailPayment attemptPk => exact Db.commit_of (fun db' hok => PaysOnly.fail hok) hself
    | cancelPendingPaymentAttempts orderPk =>
      exact Db.commit_of (fun db' hok => PaysOnly.cancel hok) hself
    | completeRetailPayment => cases hop
    | reconcileRetailPayment => cases hop
    | _ => cases hmoves
  · exact PaysOnly.ofEq ((hinv.exec op).attempts (by simpa using hmoves))

/-- What SumUp said of the checkout of an attempt that succeeded. -/
def PaidBy (settings : SumUpSettings) (answers : ℕ → Option Http) (a : PaymentAttempt) : Prop :=
  ∃ http ∈ answers a.pk, ∃ transactionId, PaidAt settings http a.providerPaymentId transactionId ∧
    a.providerTransactionId = Text.strip transactionId ∧ Text.strip transactionId ≠ ""

/-- Only a reported success completes a payment. -/
theorem status_of_onSucceeded {p : PaymentAttempt} {external : ExternalPaymentState}
    (h : reconciliationStep p external = .ok .onSucceeded) : external.status = .succeeded := by
  unfold reconciliationStep at h
  split at h
  · cases h
  · assumption
  · split at h
    · cases h
    · simp only [bind_eq_ok, pure_eq_ok] at h
      obtain ⟨-, -, h⟩ := h
      cases h

/-- **Payment needs proof.** A reconciliation only takes an attempt as paid if SumUp said so of
    its own checkout. -/
theorem reconcile_paysOnly {answer : ℕ → Http} {answers : ℕ → Option Http}
    (hanswers : answers attemptPk = some (answer attemptPk))
    (h : reconcileWithProvider rt (sumUpPayments settings answer) db attemptPk = .ok db') :
    PaysOnly (PaidBy settings answers) db db' := by
  obtain ⟨getPayment, hprovider, p, hp, rfl, -, external, hexternal, hid, step, hstep, hrun⟩ :=
    reconcileWithProvider_eq_ok.mp h
  unfold sumUpPayments at hprovider
  simp only [bind_eq_ok, mapError_eq_ok, pure_eq_ok] at hprovider
  obtain ⟨provider, hprovider, rfl⟩ := hprovider
  obtain ⟨-, response, hhttp, hown, hreports⟩ :=
    SumUpHostedPaymentProvider.getPayment_eq_ok.mp (mapError_eq_ok.mp hexternal)
  cases step with
  | done =>
    rw [ReconciliationStep.run, pure_eq_ok] at hrun
    exact PaysOnly.ofEq (by rw [hrun])
  | onFailed => exact PaysOnly.fail hrun
  | onSucceeded =>
    obtain ⟨q, hq, hqp, -, o, -, -, -, -, -, -, p', hsucc, rfl⟩ :=
      Inv.completeRetailPayment_eq_ok.mp hrun
    obtain rfl : q = p := Table.eq_of_pk_eq (t := db.paymentAttempts) hq hp hqp
    intro a ha hst
    rcases Table.of_mem_put ha with rfl | ⟨ha, -⟩
    · right
      have heq := Inv.succeeded_eq_ok hsucc
      have hpk : a.pk = q.pk := by rw [heq]
      have hpid : a.providerPaymentId = q.providerPaymentId := by rw [heq]
      have hstatus := status_of_onSucceeded hstep
      cases hreports with
      | pending => cases hstatus
      | failed => cases hstatus
      | succeeded transactionId hpaid htransaction =>
        -- the state carries the id it was asked with, stripped; that is the attempt's own
        have hown' : Text.strip q.providerPaymentId = q.providerPaymentId := hid
        rw [hown'] at hhttp hown
        refine ⟨answer q.pk, hpk ▸ hanswers, transactionId, ?_, Inv.transactionId_of_succeeded hsucc⟩
        rw [hpid]
        exact ⟨provider, hprovider, response, hhttp, hown, hpaid, htransaction⟩
    · exact Or.inl ha

/-! ### One call -/

/-- What reconciling the pending attempts one after the other does. -/
theorem reconcileAttempts_rule {P : Db → Db → Prop} (hrefl : ∀ db, P db db)
    (htrans : ∀ db₁ db₂ db₃, P db₁ db₂ → P db₂ db₃ → P db₁ db₃)
    (hstep : ∀ k d d', reconcileWithProvider rt provider d k = .ok d' → P d d')
    (attemptIds : List ℕ) (db : Db) :
    P db (reconcileAttempts rt provider (fun _ db => db) attemptIds db).1 := by
  induction attemptIds generalizing db with
  | nil => exact hrefl db
  | cons k attemptIds ih =>
    have hone : P db (reconcileAttempt rt provider db k).1 := by
      rcases reconcileAttempt_cases rt provider db k with hsame | hok
      · rw [hsame]
        exact hrefl db
      · exact hstep k db _ hok
    exact htrans _ _ _ hone (ih _)

namespace WireEvent

/-- **Simulation.** Every call does what some operations do. -/
theorem simulated (rt : Runtime) (settings : SumUpSettings) (db : Db) (e : WireEvent) :
    Simulated rt db (e.exec rt settings db) := by
  have hreconcile : ∀ {provider : PaymentProvider} {k : ℕ} {d d' : Db},
      reconcileWithProvider rt provider d k = .ok d' → Simulated rt d d' := by
    intro provider k d d' hok
    obtain ⟨external, rfl⟩ := reconcile_of_ok hok
    exact Simulated.op rt d _
  have hself : Simulated rt db db := Simulated.refl rt db
  -- one operation for each event, and one for each reconciled attempt
  cases e with
  | operation op h => exact Simulated.op rt db op
  | begin http urls checkoutPk =>
    show Simulated rt db (beginWithProvider rt settings http urls db checkoutPk).1
    rcases begin_is_op rt settings http urls db checkoutPk with hsame | ⟨op, -, hop⟩
    · rwa [hsame]
    · exact hop ▸ Simulated.op rt db op
  | retry http urls attemptPk =>
    show Simulated rt db (db.commit _)
    rcases retry_is_op rt settings http urls db attemptPk with hsame | ⟨op, -, hop⟩
    · rwa [hsame]
    · exact hop ▸ Simulated.op rt db op
  | recover http attemptPk =>
    refine Db.commit_of (fun db' hok => ?_) hself
    obtain ⟨r, hr, rfl⟩ := map_eq_ok.mp hok
    rcases recover_cases hr with hsame | hok
    · rwa [hsame]
    · exact hreconcile hok
  | reconcilePending http =>
    exact reconcileAttempts_rule (Simulated.refl rt) (fun _ _ _ h h' => h.trans h')
      (fun _ _ _ hok => hreconcile hok) _ db
  | webhook http request =>
    show Simulated rt db (sumupWebhook rt settings http db request).1
    rcases webhook_cases rt settings http db request with hsame | ⟨p, -, hok⟩
    · rwa [hsame]
    · exact hreconcile hok

/-- **Evidence.** What a call takes as paid, SumUp said was paid when the call asked. -/
theorem paysOnly (settings : SumUpSettings) (hinv : Inv rt.now db) (e : WireEvent) :
    PaysOnly (PaidBy settings (fun k => e.asks k)) db (e.exec rt settings db) := by
  have hself : PaysOnly (PaidBy settings (fun k => e.asks k)) db db := PaysOnly.ofEq rfl
  -- whatever succeeds does so on an answer the event received
  cases e with
  | operation op h => exact Op.paysOnly hinv h
  | begin http urls checkoutPk =>
    rcases begin_is_op rt settings http urls db checkoutPk with hsame | ⟨op, hop, heq⟩
    · exact PaysOnly.ofEq (congrArg Db.paymentAttempts hsame)
    · exact Eq.subst (motive := PaysOnly _ db) heq (Op.paysOnly hinv hop)
  | retry http urls attemptPk =>
    rcases retry_is_op rt settings http urls db attemptPk with hsame | ⟨op, hop, heq⟩
    · exact PaysOnly.ofEq (congrArg Db.paymentAttempts hsame)
    · exact Eq.subst (motive := PaysOnly _ db) heq (Op.paysOnly hinv hop)
  | recover http attemptPk =>
    refine Db.commit_of (fun db' hok => ?_) hself
    obtain ⟨r, hr, rfl⟩ := map_eq_ok.mp hok
    rcases recover_cases hr with hsame | hok
    · exact PaysOnly.ofEq (congrArg Db.paymentAttempts hsame)
    · exact reconcile_paysOnly rfl hok
  | reconcilePending http =>
    exact reconcileAttempts_rule (fun _ => PaysOnly.ofEq rfl) (fun _ _ _ h h' => h.trans h')
      (fun _ _ _ hok => reconcile_paysOnly rfl hok) _ db
  | webhook http request =>
    show PaysOnly _ db (sumupWebhook rt settings http db request).1
    rcases webhook_cases rt settings http db request with hsame | ⟨p, -, hok⟩
    · exact PaysOnly.ofEq (congrArg Db.paymentAttempts hsame)
    · exact reconcile_paysOnly rfl hok

end WireEvent

end

/-! ### Runs -/

/-- Operations at one time are a run of the system. -/
theorem Simulated.run {rt : Runtime} {s : State} {db' : Db} (h : Simulated rt s.db db')
    (hle : s.clock ≤ rt.now) : ∃ ls, Run SystemStep s ls ⟨rt.now, db'⟩ := by
  obtain ⟨ops, rfl⟩ := h
  -- a step that puts the catalog in place that is there already only moves the clock
  have htick : Run SystemStep s
      [(rt, .catalog s.db.products s.db.commercialPrices s.db.postalAreas)] ⟨rt.now, s.db⟩ :=
    Run.single ⟨hle, rfl⟩
  have hops : ∀ (ops : List Op) (db : Db), ∃ ls, Run SystemStep ⟨rt.now, db⟩ ls
      ⟨rt.now, ops.foldl (fun db op => op.exec rt db) db⟩ := by
    intro ops
    induction ops with
    | nil => exact fun db => ⟨[], Run.nil _⟩
    | cons op ops ih =>
      intro db
      have hop : Run SystemStep ⟨rt.now, db⟩ [(rt, op)] ⟨rt.now, op.exec rt db⟩ :=
        Run.single ⟨le_refl _, rfl⟩
      obtain ⟨ls, hls⟩ := ih (op.exec rt db)
      exact ⟨_, hop.append hls⟩
  obtain ⟨ls, hls⟩ := hops ops s.db
  exact ⟨_, htick.append hls⟩

/-- **Refinement.** The runs on the wire are runs of the system. -/
theorem wire_refines {settings : SumUpSettings} {s t : State} {ls : List (Runtime × WireEvent)}
    (h : Run (WireStep settings) s ls t) : ∃ ls', Run SystemStep s ls' t := by
  refine h.refine (fun s l t hst => ?_)
  obtain ⟨hle, rfl⟩ := hst
  exact (l.2.simulated l.1 settings s.db).run hle

/-- A run on the wire reaches only states of the system. -/
theorem reachable_of_wire {settings : SumUpSettings} {s t : State}
    {ls : List (Runtime × WireEvent)} (hreach : Reachable s) (h : Run (WireStep settings) s ls t) :
    Reachable t := by
  obtain ⟨ms, hms⟩ := hreach
  obtain ⟨ls', hls'⟩ := wire_refines h
  exact ⟨_, hms.append hls'⟩

/-- **No sale without payment.** Whatever HTTP answers and whoever calls the webhook, the state
    stays one the system itself can reach; an attempt that became SUCCEEDED did so on SumUp's word
    that its own checkout was paid; and so every retail order that is sold has a SUCCEEDED attempt
    over its full total, which was there before or became so on SumUp's word. -/
theorem sold_only_if_paid {settings : SumUpSettings} {s t : State}
    {ls : List (Runtime × WireEvent)} (hreach : Reachable s)
    (h : Run (WireStep settings) s ls t) :
    Reachable t ∧
    (∀ a ∈ t.db.paymentAttempts, a.status = .succeeded → a ∈ s.db.paymentAttempts ∨
      ∃ l ∈ ls, PaidBy settings (fun k => l.2.asks k) a) ∧
    (∀ o ∈ t.db.orders, o.channel = .retail → o.status.Sold →
      ∃ a ∈ t.db.orderAttempts o.pk, a.status = .succeeded ∧
        orderTotal (t.db.orderLines o.pk) = some a.amount ∧
        (a ∈ s.db.paymentAttempts ∨ ∃ l ∈ ls, PaidBy settings (fun k => l.2.asks k) a)) := by
  have hpaid : ∀ a ∈ t.db.paymentAttempts, a.status = .succeeded → a ∈ s.db.paymentAttempts ∨
      ∃ l ∈ ls, PaidBy settings (fun k => l.2.asks k) a := by
    -- along the run, with the answers heard so far
    induction h with
    | nil => exact fun a ha _ => Or.inl ha
    | @snoc u v ls l hrun hst ih =>
      obtain ⟨hle, rfl⟩ := hst
      have hinv := (inv_of_reachable (reachable_of_wire hreach hrun)).later hle
      intro a ha hsucc
      rcases l.2.paysOnly settings hinv a ha hsucc with ha | hpaid
      · rcases ih a ha hsucc with ha | ⟨m, hm, hpaid⟩
        · exact Or.inl ha
        · exact Or.inr ⟨m, List.mem_append_left _ hm, hpaid⟩
      · exact Or.inr ⟨l, List.mem_append_right _ (List.mem_singleton.mpr rfl), hpaid⟩
  refine ⟨reachable_of_wire hreach h, hpaid, fun o ho hch hsold => ?_⟩
  have hpay := ((inv_of_reachable (reachable_of_wire hreach h)).orders o ho).payment
  obtain ⟨a, ha, hst⟩ := hpay.paid hch hsold
  exact ⟨a, ha, hst, hpay.amount a ha, hpaid a (Db.mem_orderAttempts.mp ha).1 hst⟩

namespace Shop

def sumup : SumUpSettings := ⟨"key", "merchant"⟩

/-- SumUp answers whatever it is asked with one checkout. -/
def answers (status : String) : Http := fun _ => .body (.value (.object
  [("id", .string "ch_1"), ("status", .string status), ("transaction_id", .string "tx_1"),
    ("hosted_checkout_url", .string "pay")]))

def notification : WebhookRequest where
  method := "POST"
  body := .value (.object
    [("event_type", .string "CHECKOUT_STATUS_CHANGED"), ("id", .string "ch_1")])

/-- The morning's payment is taken to SumUp, and SumUp notifies the shop. -/
def online (status : String) : List (Runtime × WireEvent) :=
  [(runtime 4, .retry (answers "PENDING") ⟨"return", "webhook"⟩ 1),
    (runtime 5, .webhook (answers status) notification)]

/-- The state after both. -/
def settledOnline (status : String) : State :=
  (online status).foldl (fun s l => ⟨l.1.now, l.2.exec l.1 sumup s.db⟩) (State.init.after morning)

end Shop

/-- The morning's retail order is sold on the wire, and its attempt succeeded over its total,
    only because it was paid. -/
theorem sold_only_if_paid_online :
    ∃ o ∈ (Shop.settledOnline "PAID").db.orders, o.status.Sold ∧
      ∃ a ∈ (Shop.settledOnline "PAID").db.orderAttempts o.pk, a.status = .succeeded ∧
        orderTotal ((Shop.settledOnline "PAID").db.orderLines o.pk) = some a.amount ∧
          ∃ l ∈ Shop.online "PAID", PaidBy Shop.sumup (fun k => l.2.asks k) a := by
  have hreach : Reachable (State.init.after Shop.morning) := reachable_after _ (by decide)
  have hrun : Run (WireStep Shop.sumup) (State.init.after Shop.morning) (Shop.online "PAID")
      (Shop.settledOnline "PAID") :=
    ((Run.nil _).snoc ⟨by decide, rfl⟩).snoc ⟨by decide, rfl⟩
  have hex : ∃ o ∈ (Shop.settledOnline "PAID").db.orders.rows, o.channel = .retail ∧
      o.status = .placed := by decide +kernel
  obtain ⟨o, ho, hch, hst⟩ := hex
  obtain ⟨a, ha, hsucc, htotal, hpaid⟩ := (sold_only_if_paid hreach hrun).2.2 o ho hch (Or.inl hst)
  refine ⟨o, ho, Or.inl hst, a, ha, hsucc, htotal, hpaid.resolve_left (fun hold => ?_)⟩
  -- in the morning the attempt was still PENDING
  have hpending : ∀ a ∈ (State.init.after Shop.morning).db.paymentAttempts.rows,
      a.status ≠ .succeeded := by decide +kernel
  exact hpending a hold hsucc

end SwedeSweets
