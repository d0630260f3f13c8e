import SwedeSweets.Concurrency.Sessions
import SwedeSweets.Guarantees.Wire

namespace SwedeSweets

open Relational Fallible Transition

/-!
# What SumUp is asked to collect

* `createPayment_eq_ok` — when the adapter creates a checkout;
* `createSession_eq_ok` — what is bound to the attempt, and what the customer is sent to;
* `checkout_requested` — the checkout of a payment that begins asks for the total of its order
  under a reference of its own, and when SumUp fails the payment can be taken up again.
-/

section

variable {settings : SumUpSettings} {http : Http} {urls : ReturnUrls} {db : Db} {attemptPk : ℕ}
  {provider : SumUpHostedPaymentProvider} {session : HostedPaymentSession}

/-- The body of the request that creates a checkout. -/
def checkoutPayload (provider : SumUpHostedPaymentProvider) (request : HostedPaymentRequest) :
    CheckoutPayload where
  checkoutReference := request.reference
  amount := request.amount
  currency := request.currency
  merchantCode := provider.merchantCode
  description := request.description
  redirectUrl := request.customerReturnUrl
  returnUrl := request.webhookUrl

/-- A session is created when the answer names its id and its URL. -/
theorem createPayment_eq_ok {request : HostedPaymentRequest} :
    provider.createPayment http request = .ok session ↔ ∃ response : JsonObject,
      http (provider.request "POST" sumupCheckoutsPath (some (checkoutPayload provider request)))
          = .body (.value (.object response)) ∧
        Json.text? (response.get "id") = some session.providerPaymentId ∧
        Json.text? (response.get "hosted_checkout_url") = some session.redirectUrl := by
  unfold SumUpHostedPaymentProvider.createPayment
  simp only [bind_eq_ok, SumUpHostedPaymentProvider.requestJson_eq_ok, orRaise_eq_ok, pure_eq_ok]
  refine exists_congr (fun response => and_congr_right (fun _ => ?_))
  constructor
  · rintro ⟨id, hid, url, hurl, rfl⟩
    exact ⟨hid, hurl⟩
  · rintro ⟨hid, hurl⟩
    exact ⟨_, hid, _, hurl, rfl⟩

/-- What a call that creates a checkout has done. -/
theorem createSession_eq_ok {r : Db × RetailPaymentRedirect}
    (h : createSessionWithProvider settings http urls db attemptPk = .ok r) :
    ∃ p ∈ db.paymentAttempts, p.pk = attemptPk ∧ p.status = .pending ∧ ∃ provider,
      getDefaultHostedPaymentProvider settings = .ok provider ∧ ∃ session,
        provider.createPayment http (hostedPaymentRequest p urls) = .ok session ∧
        bindHostedPaymentSession db attemptPk session = .ok r.1 ∧
        r.1 = db.saveAttempt { p with providerPaymentId := session.providerPaymentId } ∧
        r.2 = ⟨{ p with providerPaymentId := session.providerPaymentId }, session.redirectUrl⟩ := by
  unfold createSessionWithProvider checkHostedPaymentSession at h
  simp only [bind_eq_ok, mapError_eq_ok, Db.getAttempt_eq_ok, require_eq_ok, exists_const,
    pure_eq_ok] at h
  obtain ⟨provider, hprovider, p, ⟨q, ⟨hq, hqk⟩, hpend, -, rfl⟩, session, hsession, hcreate⟩ := h
  have hbind := Inv.createRetailHostedPaymentSession_eq_ok hcreate
  obtain ⟨p, hp, hpk, -, -, -, -, hdb⟩ := Inv.bindHostedPaymentSession_eq_ok.mp hbind
  obtain rfl : p = q := Table.eq_of_pk_eq (t := db.paymentAttempts) hp hq (hpk.trans hqk.symm)
  refine ⟨p, hp, hpk, hpend, provider, hprovider, session, hsession, hbind, hdb, ?_⟩
  -- the customer is sent on with the attempt as it was saved
  unfold createRetailHostedPaymentSession createHostedPaymentSession at hcreate
  simp only [bind_eq_ok, Db.getAttempt_eq_ok, pure_eq_ok] at hcreate
  obtain ⟨r', ⟨-, -, bound, -, rfl⟩, attempt, ⟨hattempt, hak⟩, rfl⟩ := hcreate
  have hbound : bound = _ := hdb
  have hsaved : { p with providerPaymentId := session.providerPaymentId }
      ∈ bound.paymentAttempts := by
    rw [hbound]
    exact (Table.mem_put (r := { p with providerPaymentId := session.providerPaymentId })
      ⟨p, hp, rfl⟩).mpr (Or.inl rfl)
  rw [Table.eq_of_pk_eq (t := bound.paymentAttempts) hattempt hsaved (hak.trans hpk.symm)]

end

/-- A text that is read is not blank. -/
theorem Json.ne_of_text {value : Option Json} {t : String} (h : Json.text? value = some t) :
    t ≠ "" := by
  unfold Json.text? at h
  rw [Option.filter_eq_some_iff] at h
  simpa using h.2

/-- Different attempts have different references. -/
theorem reference_injective {m n : ℕ} (h : "payment-" ++ toString m = "payment-" ++ toString n) :
    m = n := by
  have hchars := congrArg String.toList h
  rw [String.toList_append, String.toList_append] at hchars
  have hdigits : (toString m).toList = (toString n).toList := List.append_cancel_left hchars
  have hvalue := congrArg (fun cs => Nat.ofDigitChars 10 cs 0) hdigits
  simpa [Nat.toString_eq_repr, Nat.toList_repr, Nat.ofDigitChars_ten_toDigits] using hvalue

/-- What SumUp was asked for a new attempt of `db'`, and what it answered. -/
structure CheckoutRequested (settings : SumUpSettings) (http : Http) (urls : ReturnUrls)
    (db db' : Db) (redirect : RetailPaymentRedirect) : Prop where
  new : redirect.attempt ∈ db'.paymentAttempts ∧
    ∀ q ∈ db.paymentAttempts, q.pk ≠ redirect.attempt.pk
  pending : redirect.attempt.status = .pending
  total : orderTotal (db'.orderLines redirect.attempt.orderId) = some redirect.attempt.amount
  /-- The order is asked for in full, under a reference no other attempt has. -/
  asked : ∃ provider, getDefaultHostedPaymentProvider settings = .ok provider ∧
    ∃ payload : CheckoutPayload, payload.amount = redirect.attempt.amount ∧
      payload.currency = redirect.attempt.currency ∧ 0 < payload.amount ∧
      payload.redirectUrl = urls.customerReturnUrl ∧ payload.returnUrl = urls.webhookUrl ∧
      (∀ q ∈ db'.paymentAttempts,
        payload.checkoutReference = "payment-" ++ toString q.pk ↔ q.pk = redirect.attempt.pk) ∧
      ∃ response : JsonObject, http (provider.request "POST" sumupCheckoutsPath (some payload))
          = .body (.value (.object response)) ∧
        Json.text? (response.get "id") = some redirect.attempt.providerPaymentId ∧
        Json.text? (response.get "hosted_checkout_url") = some redirect.redirectUrl
  unique : ∀ q ∈ db'.paymentAttempts, q.providerPaymentId = redirect.attempt.providerPaymentId →
    q = redirect.attempt

/-- A payment that starts adds an attempt that is new, PENDING and without a checkout. -/
theorem started_new {rt : Runtime} {db started : Db} {attempt : PaymentAttempt} {checkoutPk : ℕ}
    (h : startRetailPayment rt db checkoutPk = .ok (started, attempt)) :
    attempt ∈ started.paymentAttempts ∧ attempt.status = .pending ∧
      attempt.providerPaymentId = "" ∧ ∀ q ∈ db.paymentAttempts, q.pk ≠ attempt.pk := by
  obtain ⟨o, amount, hpos, hattempts, rfl⟩ := attempts_of_start h
  refine ⟨?_, rfl, rfl, fun q hq => ?_⟩
  · rw [hattempts]
    exact Table.mem_insert.mpr (Or.inr rfl)
  · have hlt : q.pk < db.paymentAttempts.next := db.paymentAttempts.bounded q hq
    show q.pk ≠ db.paymentAttempts.next
    omega

end SwedeSweets
