import SwedeSweets.Concurrency.Reconciliation
import SwedeSweets.Concurrency.Sessions
import SwedeSweets.Guarantees.Settlement
import SwedeSweets.Guarantees.Wire
import SwedeSweets.Whitespace

namespace SwedeSweets

open Relational Fallible Transition

/-!
# What a notification does

* `Names` — the notification is about a checkout; every other request is turned away unheard
  (`webhook_unheard`);
* `webhook_of_names` — of a checkout that is on file it reconciles the attempt;
* `TouchesOnly` — the rows that settling a payment may change: those of one order;
* `SettledIn` — the attempt afterwards; it stays as it is in every later state of the system
  (`SettledIn.run`);
* `webhook_contract` — the answer, and what may change with it: only a PENDING attempt that the
  notification names is settled, and what is settled is never changed again;
* `webhook_settles` — a notification about a PENDING attempt settles it the way SumUp says.
-/

/-- The request is a notification that a checkout changed. -/
def Names (request : WebhookRequest) (id : String) : Prop :=
  request.method = "POST" ∧ ∃ payload : JsonObject, request.body = .value (.object payload) ∧
    Json.string? (payload.get "event_type") = some sumupCheckoutStatusChanged ∧
    (Json.string? (payload.get "id")).map Text.strip = some id ∧ id ≠ ""

section

variable {rt : Runtime} {settings : SumUpSettings} {http : Http} {db db' : Db}
  {request : WebhookRequest} {id : String} {provider : PaymentProvider}

/-- The id of a notification is stripped. -/
theorem Names.stripped (h : Names request id) : Text.strip id = id := by
  obtain ⟨-, payload, -, -, hid, -⟩ := h
  obtain ⟨text, -, rfl⟩ := Option.map_eq_some_iff.mp hid
  exact Text.strip_strip text

theorem Names.ne (h : Names request id) : id ≠ "" := by
  obtain ⟨-, payload, -, -, -, hne⟩ := h
  exact hne

/-- A notification that names a checkout reconciles exactly this checkout. -/
theorem webhook_of_names (rt : Runtime) (settings : SumUpSettings) (http : Http) (db : Db)
    (h : Names request id) : sumupWebhook rt settings http db request
    = reconcileCheckout rt (sumUpPayments settings (fun _ => http)) db id := by
  obtain ⟨hmethod, payload, hbody, hevent, hid, hne⟩ := h
  unfold sumupWebhook
  rw [if_neg (not_not_intro hmethod), hbody]
  simp only [ne_eq]
  rw [if_neg (not_not_intro hevent), hid]
  have hfilter : (some id).filter (· ≠ "") = some id := by simp [hne]
  rw [hfilter]

/-- The statuses of the webhook. -/
def Answered (response : HttpResponse) : Prop := response.status ∈ [204, 400, 405, 500]

@[simp] theorem answered_noContent : Answered .noContent := by
  simp [Answered, HttpResponse.noContent]

@[simp] theorem answered_badRequest (content : String) : Answered (.badRequest content) := by
  simp [Answered, HttpResponse.badRequest]

@[simp] theorem answered_notAllowed (methods : List String) : Answered (.notAllowed methods) := by
  simp [Answered, HttpResponse.notAllowed]

@[simp] theorem answered_serverError : Answered .serverError := by
  simp [Answered, HttpResponse.serverError]

/-- **Unheard.** A request that is no notification changes nothing. -/
theorem webhook_unheard (rt : Runtime) (settings : SumUpSettings) (http : Http) (db : Db)
    (h : ∀ id, ¬ Names request id) :
    (sumupWebhook rt settings http db request).1 = db ∧
      Answered (sumupWebhook rt settings http db request).2 := by
  unfold sumupWebhook
  -- the checks of the view, in its order
  by_cases hmethod : request.method = "POST"
  · rw [if_neg (not_not_intro hmethod)]
    cases hbody : request.body with
    | unicodeDecodeError => exact ⟨rfl, answered_badRequest _⟩
    | jsonDecodeError => exact ⟨rfl, answered_badRequest _⟩
    | raised => exact ⟨rfl, answered_serverError⟩
    | value j =>
      cases j with
      | object payload =>
        simp only
        by_cases hevent : Json.string? (JsonObject.get payload "event_type")
            = some sumupCheckoutStatusChanged
        · rw [if_neg (not_not_intro hevent)]
          cases hid : (Json.string? (JsonObject.get payload "id")).map Text.strip with
          | none => exact ⟨rfl, answered_badRequest _⟩
          | some id =>
            by_cases hne : id = ""
            · subst hne
              exact ⟨rfl, answered_badRequest _⟩
            · exact absurd ⟨hmethod, payload, hbody, hevent, hid, hne⟩ (h id)
        · rw [if_pos hevent]
          exact ⟨rfl, answered_noContent⟩
      | null | bool | number | string | array => exact ⟨rfl, answered_badRequest _⟩
  · rw [if_pos hmethod]
    exact ⟨rfl, answered_notAllowed _⟩

/-! ### The checkout of an attempt -/

/-- A checkout is looked up by its id. -/
theorem select_of_bound (hu : UniqueProviderIds db) {p : PaymentAttempt}
    (hp : p ∈ db.paymentAttempts) (hne : p.providerPaymentId ≠ "") :
    db.paymentAttempts.select (fun a => a.providerPaymentId = p.providerPaymentId) = [p] := by
  refine Table.select_eq_singleton hp (fun a ha => ?_)
  rw [decide_eq_true_eq]
  constructor
  · intro hid
    exact hu a ha p hp (hid ▸ hne) hid
  · intro hap
    rw [hap]

/-- The answer on the checkout of an attempt. -/
theorem reconcileCheckout_bound (hu : UniqueProviderIds db) {p : PaymentAttempt}
    (hp : p ∈ db.paymentAttempts) (hne : p.providerPaymentId ≠ "")
    (hnul : Char.ofNat 0 ∉ p.providerPaymentId.toList) :
    reconcileCheckout rt provider db p.providerPaymentId
      = (db.commit (reconcileWithProvider rt provider db p.pk),
        if (reconcileWithProvider rt provider db p.pk).isOk = true then .noContent
        else .serverError) := by
  unfold reconcileCheckout
  rw [if_neg hnul, select_of_bound hu hp hne]
  simp only
  cases reconcileWithProvider rt provider db p.pk with
  | error e => rfl
  | ok db' => rfl

/-- A checkout is answered with 204, or with 500 and no change. -/
theorem reconcileCheckout_status (rt : Runtime) (provider : PaymentProvider) (db : Db)
    (id : String) :
    (reconcileCheckout rt provider db id).2 = .serverError ∧
        (reconcileCheckout rt provider db id).1 = db ∨
      (reconcileCheckout rt provider db id).2 = .noContent := by
  unfold reconcileCheckout
  split
  · exact Or.inl ⟨rfl, rfl⟩
  · split
    · exact Or.inr rfl
    · split
      · exact Or.inl ⟨rfl, rfl⟩
      · exact Or.inr rfl
    · exact Or.inl ⟨rfl, rfl⟩

/-- Only a PENDING attempt has anything left to do. -/
theorem pending_of_step {p : PaymentAttempt} {external : ExternalPaymentState}
    {step : ReconciliationStep} (h : reconciliationStep p external = .ok step)
    (hstep : step ≠ .done) : p.status = .pending := by
  -- a settled attempt is only confirmed, never moved
  unfold reconciliationStep at h
  split at h
  · rw [pure_eq_ok] at h
    exact absurd h.symm hstep
  · split at h
    · simp only [bind_eq_ok, pure_eq_ok] at h
      obtain ⟨-, -, h⟩ := h
      exact absurd h.symm hstep
    · simp only [bind_eq_ok, require_eq_ok, exists_const] at h
      exact h.1
  · split at h
    · rw [pure_eq_ok] at h
      exact absurd h.symm hstep
    · rename_i hunsettled
      simp only [bind_eq_ok, require_eq_ok, exists_const] at h
      cases hst : p.status with
      | pending => rfl
      | succeeded => exact absurd hst h.1
      | failed => exact absurd (Or.inl hst) hunsettled
      | cancelled => exact absurd (Or.inr hst) hunsettled

/-- A write on one order, its reservations and its payments: no other order and no other table
    has changed, and the order has the lines it had. -/
structure TouchesOnly (k : ℕ) (db db' : Db) : Prop extends Touches k db db' where
  products : db'.products = db.products
  prices : db'.commercialPrices = db.commercialPrices
  batches : db'.batches = db.batches
  allLines : db'.lines = db.lines
  checkouts : db'.retailCheckouts = db.retailCheckouts
  areas : db'.postalAreas = db.postalAreas

/-- A reconciliation writes on the order of its attempt only. -/
theorem touchesOnly_reconcile {p : PaymentAttempt} (hp : p ∈ db.paymentAttempts)
    (h : reconcileWithProvider rt provider db p.pk = .ok db') : TouchesOnly p.orderId db db' := by
  have htouch : Touches p.orderId db db' := by
    have hcommit : Touches p.orderId db (db.commit (reconcileWithProvider rt provider db p.pk)) :=
      touches_reconcile hp
    rwa [h] at hcommit
  obtain ⟨-, -, -, -, -, -, external, -, -, step, -, hrun⟩ := reconcileWithProvider_eq_ok.mp h
  -- neither step writes a batch, a product, an offer, a cart or a checkout
  cases step with
  | done =>
    rw [ReconciliationStep.run, pure_eq_ok] at hrun
    subst hrun
    exact ⟨htouch, rfl, rfl, rfl, rfl, rfl, rfl⟩
  | onSucceeded =>
    obtain ⟨q, -, -, -, o, -, -, -, -, -, -, p', -, rfl⟩ := Inv.completeRetailPayment_eq_ok.mp hrun
    exact ⟨htouch, rfl, rfl, rfl, rfl, rfl, rfl⟩
  | onFailed =>
    obtain ⟨q, -, -, -, o, -, -, -, -, rfl⟩ := Inv.failRetailPayment_eq_ok.mp hrun
    exact ⟨htouch, rfl, rfl, rfl, rfl, rfl, rfl⟩

/-- An attempt after its payment was settled, under the same id. -/
structure SettledIn (db' : Db) (p p' : PaymentAttempt) : Prop where
  mem : p' ∈ db'.paymentAttempts
  pk : p'.pk = p.pk
  id : p'.providerPaymentId = p.providerPaymentId
  settled : p'.status ≠ .pending

/-- One step of the system leaves a settled attempt settled, under its id. -/
theorem SettledIn.step {s t : State} {l : Runtime × Op} {p p' : PaymentAttempt} (hs : Reachable s)
    (h : SettledIn s.db p p') (hl : SystemStep s l t) : ∃ p'', SettledIn t.db p p'' := by
  obtain ⟨hle, rfl⟩ := hl
  have hinv := (inv_of_reachable hs).later hle
  obtain ⟨q, hq, hqpk, -, hqst⟩ := hinv.paymentStep l.2 p' h.mem
  obtain ⟨r, hr, hrpk, hrid⟩ := (BindingStep.ofOp hinv l.2).binds p' h.mem
  obtain rfl : r = q := Table.eq_of_pk_eq hr hq (hrpk.trans hqpk.symm)
  -- neither status nor id moves unless the attempt is PENDING
  have hst : r.status = p'.status := hqst.resolve_right (fun hp => h.settled hp.1)
  have hid : r.providerPaymentId = p'.providerPaymentId :=
    hrid.resolve_right (fun hp => h.settled hp.2)
  exact ⟨r, hr, hqpk.trans h.pk, hid.trans h.id, hst ▸ h.settled⟩

/-- So does a run. -/
theorem SettledIn.run {s t : State} {ls : List (Runtime × Op)} {p p' : PaymentAttempt}
    (hs : Reachable s) (h : SettledIn s.db p p') (hrun : Run SystemStep s ls t) :
    ∃ p'', SettledIn t.db p p'' := by
  have hkept := hrun.invariant (I := fun t => Reachable t ∧ ∃ p'', SettledIn t.db p p'') ?_
    ⟨hs, p', h⟩
  · exact hkept.2
  · rintro u l v ⟨hu, q, hq⟩ hl
    exact ⟨hu.step hl, hq.step hu hl⟩

/-- A reconciliation that changes anything settles a PENDING attempt. -/
theorem reconcile_changes {p : PaymentAttempt} (hp : p ∈ db.paymentAttempts)
    (h : reconcileWithProvider rt provider db p.pk = .ok db') :
    db' = db ∨ p.status = .pending ∧ TouchesOnly p.orderId db db' ∧ ∃ p', SettledIn db' p p' := by
  have htouch := touchesOnly_reconcile hp h
  obtain ⟨-, -, q, hq, hqp, -, external, -, -, step, hstep, hrun⟩ := reconcileWithProvider_eq_ok.mp h
  -- the attempt read back is the one asked about
  obtain rfl : q = p := Table.eq_of_pk_eq (t := db.paymentAttempts) hq hp hqp
  cases step with
  | done =>
    rw [ReconciliationStep.run, pure_eq_ok] at hrun
    exact Or.inl hrun.symm
  | onSucceeded =>
    have hpend := pending_of_step hstep (by simp)
    obtain ⟨r, hr, hrq, p', hsucc, hp'⟩ := attempt_of_complete hrun
    obtain rfl : r = q := Table.eq_of_pk_eq (t := db.paymentAttempts) hr hq hrq
    have heq := Inv.succeeded_eq_ok hsucc
    refine Or.inr ⟨hpend, htouch, p', hp', by rw [heq], by rw [heq], ?_⟩
    rw [heq]
    simp
  | onFailed =>
    have hpend := pending_of_step hstep (by simp)
    obtain ⟨r, hr, hrq, hp'⟩ := attempt_of_fail hrun
    obtain rfl : r = q := Table.eq_of_pk_eq (t := db.paymentAttempts) hr hq hrq
    exact Or.inr ⟨hpend, htouch, _, hp', rfl, rfl, by simp⟩

/-- **Final.** No notification changes anything about a settled attempt. -/
theorem webhook_final (hu : UniqueProviderIds db) {p : PaymentAttempt}
    (hp : p ∈ db.paymentAttempts) (hst : p.status ≠ .pending)
    (h : Names request p.providerPaymentId) :
    (sumupWebhook rt settings http db request).1 = db := by
  rw [webhook_of_names rt settings http db h]
  rcases reconcileCheckout_cases rt (sumUpPayments settings (fun _ => http)) db
    p.providerPaymentId with hsame | ⟨q, hq, hqid, hok⟩
  · exact hsame
  · obtain rfl : q = p := hu q hq p hp (hqid ▸ h.ne) hqid
    exact (reconcile_changes hq hok).resolve_right (fun hc => hst hc.1)

end

/-- **Contract.** Every request is answered with 204, 400, 405 or 500, and changes nothing unless
    the answer is 204.  It changes something only if it names the checkout of a PENDING attempt;
    then only the rows of this attempt's order are touched and the attempt is settled, and in no
    later state of the system does a notification of that checkout, whatever SumUp then says,
    change anything. -/
theorem webhook_contract {s : State} (hreach : Reachable s) (rt : Runtime)
    (settings : SumUpSettings) (http : Http) (request : WebhookRequest) :
    Answered (sumupWebhook rt settings http s.db request).2 ∧
    ((sumupWebhook rt settings http s.db request).2.status ≠ 204 →
      (sumupWebhook rt settings http s.db request).1 = s.db) ∧
    ((sumupWebhook rt settings http s.db request).1 ≠ s.db →
      ∃ p ∈ s.db.paymentAttempts, p.status = .pending ∧ Names request p.providerPaymentId ∧
        TouchesOnly p.orderId s.db (sumupWebhook rt settings http s.db request).1 ∧
        (∃ p', SettledIn (sumupWebhook rt settings http s.db request).1 p p') ∧
        ∀ ls t, s.clock ≤ rt.now →
          Run SystemStep ⟨rt.now, (sumupWebhook rt settings http s.db request).1⟩ ls t →
          ∀ rt' settings' http' request', Names request' p.providerPaymentId →
            (sumupWebhook rt' settings' http' t.db request').1 = t.db) := by
  by_cases hnames : ∃ id, Names request id
  · obtain ⟨id, hnames⟩ := hnames
    have hstatus := reconcileCheckout_status rt (sumUpPayments settings (fun _ => http)) s.db id
    have hcases := reconcileCheckout_cases rt (sumUpPayments settings (fun _ => http)) s.db id
    rw [webhook_of_names rt settings http s.db hnames]
    refine ⟨?_, fun hne => ?_, fun hne => ?_⟩
    · rcases hstatus with ⟨h, -⟩ | h <;> rw [h] <;> simp
    · rcases hstatus with ⟨-, h⟩ | h
      · exact h
      · exact absurd (by rw [h]; rfl) hne
    · obtain ⟨p, hp, rfl, hok⟩ := hcases.resolve_left hne
      obtain ⟨hpend, htouch, p', hp'⟩ := (reconcile_changes hp hok).resolve_left hne
      refine ⟨p, hp, hpend, hnames, htouch, ⟨p', hp'⟩,
        fun ls t hle hrun rt' settings' http' request' hnames' => ?_⟩
      -- the call is a step of the system, so everything after it is reachable
      have hcall : WireStep settings s (rt, .webhook http request)
          ⟨rt.now, (sumupWebhook rt settings http s.db request).1⟩ := ⟨hle, rfl⟩
      rw [webhook_of_names rt settings http s.db hnames] at hcall
      have hafter := reachable_of_wire hreach (Run.single hcall)
      obtain ⟨q, hq⟩ := hp'.run hafter hrun
      obtain ⟨ms, hms⟩ := hafter
      have hu := uniqueProviderIds_of_reachable ⟨_, hms.append hrun⟩
      exact webhook_final hu hq.mem hq.settled (hq.id ▸ hnames')
  · obtain ⟨hsame, hstatus⟩ := webhook_unheard rt settings http s.db
      (fun id hid => hnames ⟨id, hid⟩)
    exact ⟨hstatus, fun _ => hsame, fun hne => absurd hsame hne⟩

/-- The state in which the morning's payment has its checkout. -/
def Shop.awaitingPayment : State :=
  ⟨4, (WireEvent.retry (Shop.answers "PENDING") ⟨"return", "webhook"⟩ 1).exec (Shop.runtime 4)
    Shop.sumup (State.init.after Shop.morning).db⟩

theorem reachable_awaitingPayment : Reachable Shop.awaitingPayment := by
  have hstep : WireStep Shop.sumup (State.init.after Shop.morning)
      (Shop.runtime 4, .retry (Shop.answers "PENDING") ⟨"return", "webhook"⟩ 1)
      Shop.awaitingPayment := ⟨by decide, rfl⟩
  exact reachable_of_wire (reachable_after Shop.morning (by decide)) (Run.single hstep)

theorem names_notification : Names Shop.notification "ch_1" :=
  ⟨rfl, _, rfl, rfl, by decide +kernel, by decide⟩

/-- The state after the notification that it is paid, and the one after its order is packed. -/
def Shop.paidOnline : State :=
  ⟨5, (sumupWebhook (Shop.runtime 5) Shop.sumup (Shop.answers "PAID") Shop.awaitingPayment.db
    Shop.notification).1⟩

def Shop.packedOnline : State :=
  ⟨6, (Op.packOrder 2 none).exec (Shop.runtime 6) Shop.paidOnline.db⟩

/-- Once the payment is in and its order is packed, a notification that it failed changes
    nothing. -/
theorem webhook_contract_online :
    Shop.paidOnline.db ≠ Shop.awaitingPayment.db ∧
    (∃ o ∈ Shop.packedOnline.db.orders.rows, o.pk = 2 ∧ o.status = .packed) ∧
    (sumupWebhook (Shop.runtime 7) Shop.sumup (Shop.answers "FAILED") Shop.packedOnline.db
      Shop.notification).1 = Shop.packedOnline.db := by
  have hne : Shop.paidOnline.db ≠ Shop.awaitingPayment.db := by
    intro hsame
    have hstatus := congrArg (Db.attemptStatus · 1) hsame
    revert hstatus
    decide +kernel
  obtain ⟨p, hp, -, hnames, -, -, hfinal⟩ := (webhook_contract reachable_awaitingPayment
    (Shop.runtime 5) Shop.sumup (Shop.answers "PAID") Shop.notification).2.2 hne
  have hpack : SystemStep Shop.paidOnline (Shop.runtime 6, .packOrder 2 none) Shop.packedOnline :=
    ⟨by decide, rfl⟩
  exact ⟨hne, by decide +kernel, hfinal _ _ (by decide) (Run.single hpack) _ _ _ _ hnames⟩

/-! ### Settling -/

section

variable {rt : Runtime} {settings : SumUpSettings} {provider : SumUpHostedPaymentProvider}
  {http : Http} {db db' : Db} {p : PaymentAttempt} {external : ExternalPaymentState}

theorem sumUpPayments_eq (hprovider : getDefaultHostedPaymentProvider settings = .ok provider) :
    sumUpPayments settings (fun _ => http) p.pk = .ok (fun id =>
      (provider.getPayment http id).mapError ProviderError.asError) := by
  unfold sumUpPayments
  rw [hprovider]
  rfl

/-- Reconciling a PENDING attempt does what the provider's state asks for. -/
theorem reconcile_pending_eq_ok (rt : Runtime)
    (hprovider : getDefaultHostedPaymentProvider settings = .ok provider)
    (hp : p ∈ db.paymentAttempts) (hpend : p.status = .pending) (hne : p.providerPaymentId ≠ "")
    (hask : provider.getPayment http p.providerPaymentId = .ok external)
    (hid : external.providerPaymentId = p.providerPaymentId)
    (hrun : external.step.run db p.pk external (completeRetailPayment rt) failRetailPayment
      = .ok db') :
    reconcileWithProvider rt (sumUpPayments settings (fun _ => http)) db p.pk = .ok db' := by
  exact reconcileWithProvider_eq_ok.mpr ⟨_, sumUpPayments_eq hprovider, p, hp, rfl, hne, external,
    mapError_eq_ok.mpr hask, hid, external.step, reconciliationStep_pending hpend, hrun⟩

/-- Without an answer to go by there is no reconciliation. -/
theorem reconcile_not_ok (rt : Runtime)
    (hprovider : getDefaultHostedPaymentProvider settings = .ok provider)
    (hp : p ∈ db.paymentAttempts) {e : ProviderError}
    (hask : provider.getPayment http p.providerPaymentId = .error e) :
    (reconcileWithProvider rt (sumUpPayments settings (fun _ => http)) db p.pk).isOk = false := by
  -- without an answer there is no step to take
  cases hrec : reconcileWithProvider rt (sumUpPayments settings (fun _ => http)) db p.pk with
  | error e => rfl
  | ok db' =>
    obtain ⟨getPayment, hget, q, hq, hqp, -, external, hexternal, -⟩ :=
      reconcileWithProvider_eq_ok.mp hrec
    obtain rfl : q = p := Table.eq_of_pk_eq (t := db.paymentAttempts) hq hp hqp
    rw [sumUpPayments_eq hprovider, Except.ok.injEq] at hget
    rw [← hget] at hexternal
    have hok := mapError_eq_ok.mp hexternal
    rw [hask] at hok
    cases hok

/-- What a failed payment leaves behind. -/
theorem settled_of_fail {now : Time} {o : Order} (hinv : Inv now db) (hp : p ∈ db.paymentAttempts)
    (ho : o ∈ db.orders) (hpk : o.pk = p.orderId) (hst : o.status = .draft)
    (hok : failRetailPayment db p.pk = .ok db') :
    { p with status := .failed } ∈ db'.paymentAttempts ∧
      Without .reserved (db'.orderAllocations o.pk) := by
  obtain ⟨q, hq, hqp, -, x, hx, hxq, -, -, rfl⟩ := Inv.failRetailPayment_eq_ok.mp hok
  obtain rfl : q = p := Table.eq_of_pk_eq (t := db.paymentAttempts) hq hp hqp
  obtain rfl : x = o := Table.eq_of_pk_eq (t := db.orders) hx ho (hxq.trans hpk.symm)
  refine ⟨(Table.mem_put (r := { q with status := .failed }) ⟨q, hq, rfl⟩).mpr (Or.inl rfl), ?_⟩
  have hdraft : Drafted x.channel (db.orderLines x.pk) (db.orderAllocations x.pk) := by
    have hstock := (hinv.orders x hx).stock
    unfold StockOk at hstock
    rwa [hst] at hstock
  exact (Inv.without_of_releasedTemporary hdraft).1

/-- What a successful payment leaves behind. -/
theorem settled_of_complete {o : Order} (hinv : Inv rt.now db) (hp : p ∈ db.paymentAttempts)
    (ho : o ∈ db.orders) (hpk : o.pk = p.orderId) {transactionId : Option String}
    (hok : completeRetailPayment rt db p.pk transactionId = .ok db') :
    (∃ p' ∈ db'.paymentAttempts, p.succeeded transactionId = .ok p') ∧
      o.asPlaced rt.now none ∈ db'.orders ∧
      Secured (db'.orderLines o.pk) (db'.orderAllocations o.pk) := by
  have hafter := (hinv.complete hok).1
  obtain ⟨q, hq, hqp, -, x, hx, hxq, -, -, -, -, p', hsucc, rfl⟩ :=
    Inv.completeRetailPayment_eq_ok.mp hok
  obtain rfl : q = p := Table.eq_of_pk_eq (t := db.paymentAttempts) hq hp hqp
  obtain rfl : x = o := Table.eq_of_pk_eq (t := db.orders) hx ho (hxq.trans hpk.symm)
  -- the order is placed with its reservations made permanent
  have hplaced : x.asPlaced rt.now none ∈ (db.completed rt.now x p').orders :=
    (Table.mem_put (r := x.asPlaced rt.now none) ⟨x, hx, rfl⟩).mpr (Or.inl rfl)
  have hpk' : q.pk = p'.pk := by rw [Inv.succeeded_eq_ok hsucc]
  refine ⟨⟨p', (Table.mem_put (r := p') ⟨q, hq, hpk'⟩).mpr (Or.inl rfl), hsucc⟩, hplaced, ?_⟩
  exact (hafter.orders _ hplaced).stock

end

/-- **Settled as SumUp says.** A notification about the PENDING attempt of a DRAFT order: when SumUp
    cannot be asked, or gives no state to go by, the answer is 500 and nothing changes; otherwise
    the attempt stays, fails and lets its stock go, or succeeds, and with it the order is placed
    and its stock secured. -/
theorem webhook_settles {s : State} {rt : Runtime} {settings : SumUpSettings}
    {provider : SumUpHostedPaymentProvider} {http : Http} {request : WebhookRequest}
    {p : PaymentAttempt} {o : Order} (hreach : Reachable s) (hle : s.clock ≤ rt.now)
    (hprovider : getDefaultHostedPaymentProvider settings = .ok provider)
    (hp : p ∈ s.db.paymentAttempts) (hpend : p.status = .pending) (ho : o ∈ s.db.orders)
    (hpk : o.pk = p.orderId) (hst : o.status = .draft) (hnames : Names request p.providerPaymentId)
    (hnul : Char.ofNat 0 ∉ p.providerPaymentId.toList) :
    (∀ e, provider.getPayment http p.providerPaymentId = .error e →
      sumupWebhook rt settings http s.db request = (s.db, .serverError)) ∧
    (∀ external, provider.getPayment http p.providerPaymentId = .ok external →
      (external.status = .pending → sumupWebhook rt settings http s.db request
        = (s.db, .noContent)) ∧
      (external.status = .failed → ∃ db', sumupWebhook rt settings http s.db request
          = (db', .noContent) ∧ { p with status := .failed } ∈ db'.paymentAttempts ∧
        Without .reserved (db'.orderAllocations o.pk)) ∧
      (external.status = .succeeded → Inv.ValidTransactionId external.providerTransactionId →
        (∀ a ∈ s.db.orderAllocations o.pk, a.status = .reserved → a.isActive rt.now = true) →
        ∃ db', sumupWebhook rt settings http s.db request = (db', .noContent) ∧
          (∃ p' ∈ db'.paymentAttempts, p.succeeded external.providerTransactionId = .ok p') ∧
          o.asPlaced rt.now none ∈ db'.orders ∧
          Secured (db'.orderLines o.pk) (db'.orderAllocations o.pk))) := by
  have hinv := (inv_of_reachable hreach).later hle
  have hwebhook := (webhook_of_names rt settings http s.db hnames).trans
    (reconcileCheckout_bound (uniqueProviderIds_of_reachable hreach) hp hnames.ne hnul)
  -- an accepted reconciliation is answered with 204
  have hanswer : ∀ {db'}, reconcileWithProvider rt (sumUpPayments settings (fun _ => http)) s.db p.pk
      = .ok db' → sumupWebhook rt settings http s.db request = (db', .noContent) := by
    intro db' hok
    rw [hwebhook, hok]
    rfl
  refine ⟨fun e hask => ?_, fun external hask => ?_⟩
  · have hnot := reconcile_not_ok rt hprovider hp hask
    rw [hwebhook, hnot]
    cases hrec : reconcileWithProvider rt (sumUpPayments settings fun _ => http) s.db p.pk with
    | error e => rfl
    | ok db' =>
      rw [hrec] at hnot
      cases hnot
  -- the adapter hands back the id it asked for
  have hid : external.providerPaymentId = p.providerPaymentId := by
    obtain ⟨-, response, -, -, hreports⟩ := SumUpHostedPaymentProvider.getPayment_eq_ok.mp hask
    rw [hnames.stripped] at hreports
    cases hreports <;> rfl
  have hreconcile : ∀ {db'}, external.step.run s.db p.pk external (completeRetailPayment rt)
      failRetailPayment = .ok db' → reconcileWithProvider rt
        (sumUpPayments settings (fun _ => http)) s.db p.pk = .ok db' :=
    reconcile_pending_eq_ok rt hprovider hp hpend hnames.ne hask hid
  refine ⟨fun hpending => ?_, fun hfailed => ?_, fun hsucceeded hvalid hlive => ?_⟩
  · refine hanswer (hreconcile ?_)
    simp only [ExternalPaymentState.step, hpending]
    rfl
  · obtain ⟨db', hok⟩ := hinv.exists_fail hp ho hpk hst hpend
    refine ⟨db', hanswer (hreconcile ?_), settled_of_fail hinv hp ho hpk hst hok⟩
    simp only [ExternalPaymentState.step, hfailed]
    exact hok
  · obtain ⟨-, ⟨a, ha, hares⟩, -⟩ := hinv.held_of_pending hp ho hpk hst hpend
    obtain ⟨hmem, hak⟩ := Db.mem_orderAllocations.mp ha
    have hactive : activeOf rt.now o.pk a = true := Bool.and_eq_true_iff.mpr
      ⟨reservedOf_iff.mpr ⟨hak, hares⟩, hlive a ha hares⟩
    obtain ⟨db', hok⟩ := hinv.exists_complete hp ho hpk hst hpend ⟨a, hmem, hactive⟩ hvalid
    refine ⟨db', hanswer (hreconcile ?_), settled_of_complete hinv hp ho hpk hok⟩
    simp only [ExternalPaymentState.step, hsucceeded]
    exact hok

/-- The morning's payment is settled by the notification that it is paid. -/
theorem webhook_settles_online : ∃ db', sumupWebhook (Shop.runtime 5) Shop.sumup
    (Shop.answers "PAID") Shop.awaitingPayment.db Shop.notification = (db', .noContent) ∧
      ∃ o ∈ db'.orders, o.status = .placed := by
  have hex : ∃ p ∈ Shop.awaitingPayment.db.paymentAttempts.rows, p.status = .pending ∧
      p.providerPaymentId = "ch_1" ∧ ∃ o ∈ Shop.awaitingPayment.db.orders.rows,
        o.pk = p.orderId ∧ o.status = .draft ∧ ∀ a ∈ Shop.awaitingPayment.db.allocations.rows,
          a.orderId = o.pk → a.status = .reserved → a.isActive (Shop.runtime 5).now = true := by
    decide +kernel
  obtain ⟨p, hp, hpend, hid, o, ho, hpk, hst, hlive⟩ := hex
  obtain ⟨provider, hprovider⟩ :=
    exists_of_isOk (x := getDefaultHostedPaymentProvider Shop.sumup) (by decide +kernel)
  have hstrip : Text.strip "ch_1" = "ch_1" := by decide +kernel
  -- SumUp reports the checkout as paid
  have hask : provider.getPayment (Shop.answers "PAID") p.providerPaymentId
      = .ok ⟨Text.strip "ch_1", .succeeded, some "tx_1", some "pay"⟩ := by
    rw [hid]
    exact SumUpHostedPaymentProvider.getPayment_eq_ok.mpr
      ⟨by rw [hstrip]; decide, _, rfl, by rw [hstrip]; decide +kernel, .succeeded "tx_1" rfl rfl⟩
  have hvalid : Inv.ValidTransactionId (some "tx_1") := by
    intro t ht
    rw [← Option.some.inj ht]
    exact ⟨by decide +kernel, by decide +kernel⟩
  have hclock : Shop.awaitingPayment.clock ≤ (Shop.runtime 5).now := by decide
  have hnames : Names Shop.notification p.providerPaymentId := by
    rw [hid]
    exact names_notification
  have hnul : Char.ofNat 0 ∉ p.providerPaymentId.toList := by
    rw [hid]
    decide +kernel
  have hsettles := (webhook_settles reachable_awaitingPayment hclock hprovider hp hpend ho hpk hst
    hnames hnul).2 _ hask
  obtain ⟨db', hanswer, -, hplaced, -⟩ := hsettles.2.2 rfl hvalid (fun a ha hares =>
    hlive a (Db.mem_orderAllocations.mp ha).1 (Db.mem_orderAllocations.mp ha).2 hares)
  exact ⟨db', hanswer, _, hplaced, rfl⟩

end SwedeSweets
