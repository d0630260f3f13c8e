import SwedeSweets.Payments.SumUp
import SwedeSweets.Retail.Reconciliation

namespace SwedeSweets

open Relational Fallible

/-!
# Hosted payments over the wire

The retail services that call the payment provider, with SumUp as that provider, and the webhook
that SumUp calls.

* `sumUpPayments` — SumUp as the provider of reconciliation;
* `beginWithProvider`, `retryWithProvider` — a checkout is created at SumUp and bound to the
  attempt;
* `recoverWithProvider` — what a returning customer is told;
* `sumupWebhook` — SumUp's notification that a checkout changed.
-/

/-- An exception of the adapter among those of the services.  Nobody tells them apart. -/
def ProviderError.asError : ProviderError → Error
  | .sumUpPaymentError message => .runtimeError message
  | .unsupportedStatus _ => .runtimeError "unsupported SumUp checkout status"
  | .valueError message => .valueError message
  | .unicodeDecodeError => .valueError "invalid start byte"
  | .typeError => .runtimeError "unhashable type"
  | .raised => .runtimeError "urlopen"

/-- SumUp as the provider of reconciliation.  Every attempt is asked for in an HTTP call of its
    own. -/
def sumUpPayments (settings : SumUpSettings) (http : ℕ → Http) : PaymentProvider :=
  fun attemptPk => do
    let provider ← (getDefaultHostedPaymentProvider settings).mapError ProviderError.asError
    return fun providerPaymentId =>
      (provider.getPayment (http attemptPk) providerPaymentId).mapError ProviderError.asError

/-! ### Creating a checkout -/

/-- Where SumUp sends the customer, and its notifications. -/
structure ReturnUrls where
  customerReturnUrl : String
  webhookUrl : String
  deriving DecidableEq, Repr

/-- What the hosted payment of an attempt is requested with. -/
def hostedPaymentRequest (attempt : PaymentAttempt) (urls : ReturnUrls) : HostedPaymentRequest where
  reference := "payment-" ++ toString attempt.pk
  amount := attempt.amount
  currency := attempt.currency
  description := "SwedeSweets order " ++ toString attempt.orderId
  customerReturnUrl := urls.customerReturnUrl
  webhookUrl := urls.webhookUrl

/-- `_create_retail_hosted_payment_session`, the call to SumUp included. -/
def createSessionWithProvider (settings : SumUpSettings) (http : Http) (urls : ReturnUrls) (db : Db)
    (attemptPk : ℕ) : Result (Db × RetailPaymentRedirect) := do
  let provider ← (getDefaultHostedPaymentProvider settings).mapError ProviderError.asError
  let attempt ← checkHostedPaymentSession db attemptPk
  let session ← (provider.createPayment http (hostedPaymentRequest attempt urls)).mapError
    ProviderError.asError
  createRetailHostedPaymentSession db attemptPk session

/-- `begin_retail_hosted_payment`.  The attempt is committed before SumUp is called. -/
def beginWithProvider (rt : Runtime) (settings : SumUpSettings) (http : Http) (urls : ReturnUrls)
    (db : Db) (checkoutPk : ℕ) : Db × Result RetailPaymentRedirect :=
  match startRetailPayment rt db checkoutPk with
  | .error e => (db, .error e)
  | .ok (started, attempt) =>
      match createSessionWithProvider settings http urls started attempt.pk with
      | .error e => (started, .error e)
      | .ok (bound, redirect) => (bound, .ok redirect)

/-- `retry_retail_hosted_payment`. -/
def retryWithProvider (settings : SumUpSettings) (http : Http) (urls : ReturnUrls) (db : Db)
    (attemptPk : ℕ) : Result (Db × RetailPaymentRedirect) :=
  createSessionWithProvider settings http urls db attemptPk

/-! ### Recovery -/

/-- What the provider says of an attempt that is about to be reconciled. -/
def askProvider (provider : PaymentProvider) (db : Db) (attemptPk : ℕ) :
    Result ExternalPaymentState := do
  let getPayment ← provider attemptPk
  let attempt ← loadForReconciliation db attemptPk
  getPayment attempt.providerPaymentId

/-- `recover_retail_payment`, the call to the provider included. -/
def recoverWithProvider (rt : Runtime) (provider : PaymentProvider) (db : Db) (attemptPk : ℕ) :
    Result (Db × RetailPaymentRecovery) := do
  let attempt ← db.getAttempt attemptPk
  match settledRecovery attempt with
  | some recovery => return (db, recovery)
  | none =>
      match askProvider provider db attemptPk with
      | .ok external => recoverRetailPayment rt db attemptPk external
      | .error _ => return (db, ⟨attempt, .needsSupport, none⟩)

/-! ### The webhook -/

/-- A request to the webhook, with what `json.loads` makes of its body. -/
structure WebhookRequest where
  method : String
  body : Loads

structure HttpResponse where
  status : ℕ
  content : String
  /-- The methods of the `Allow` header. -/
  allow : List String
  deriving DecidableEq, Repr

namespace HttpResponse

def noContent : HttpResponse := ⟨204, "", []⟩
def badRequest (content : String) : HttpResponse := ⟨400, content, []⟩
def notAllowed (permittedMethods : List String) : HttpResponse := ⟨405, "", permittedMethods⟩
/-- Also what an exception becomes that the view does not catch. -/
def serverError : HttpResponse := ⟨500, "", []⟩

end HttpResponse

def sumupCheckoutStatusChanged : String := "CHECKOUT_STATUS_CHANGED"

/-- The end of `sumup_webhook`, for the checkout it is about.  A text with a NUL cannot be looked
    up in the database. -/
def reconcileCheckout (rt : Runtime) (provider : PaymentProvider) (db : Db)
    (providerPaymentId : String) : Db × HttpResponse :=
  if Char.ofNat 0 ∈ providerPaymentId.toList then (db, .serverError)
  else
    match db.paymentAttempts.select (fun a => a.providerPaymentId = providerPaymentId) with
    | [] => (db, .noContent)
    | [attempt] =>
        match reconcileWithProvider rt provider db attempt.pk with
        | .error _ => (db, .serverError)
        | .ok db => (db, .noContent)
    | _ => (db, .serverError)

/-- Receive and reconcile SumUp checkout status notifications. -/
def sumupWebhook (rt : Runtime) (settings : SumUpSettings) (http : Http) (db : Db)
    (request : WebhookRequest) : Db × HttpResponse :=
  if request.method ≠ "POST" then (db, .notAllowed ["POST"])
  else
    match request.body with
    | .unicodeDecodeError => (db, .badRequest "Invalid JSON.")
    | .jsonDecodeError => (db, .badRequest "Invalid JSON.")
    | .raised => (db, .serverError)
    | .value (.object payload) =>
        if Json.string? (JsonObject.get payload "event_type") ≠ some sumupCheckoutStatusChanged then
          (db, .noContent)
        else
          let providerPaymentId := (Json.string? (JsonObject.get payload "id")).map Text.strip
          match providerPaymentId.filter (· ≠ "") with
          | none => (db, .badRequest "Checkout id is required.")
          | some providerPaymentId =>
              reconcileCheckout rt (sumUpPayments settings (fun _ => http)) db providerPaymentId
    | .value _ => (db, .badRequest "Webhook payload must be a JSON object.")

end SwedeSweets
