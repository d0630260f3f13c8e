import SwedeSweets.Database

namespace SwedeSweets

open Relational Fallible

/-!
# Payment services

Creating a payment attempt and moving it to a terminal status; binding it to a hosted
provider session; and reconciling it against what the provider says.  The two services
that call the provider are cut at that call, into what runs before and after it.
-/

/-- `order.payment_attempts` in status PENDING. -/
def pendingOf (orderPk : ℕ) (a : PaymentAttempt) : Bool :=
  a.orderId = orderPk && a.status = .pending

/-- One payment attempt about to be inserted. -/
def newAttempt (order : Order) (amount : Cents) (h : 0 < amount) : NewRow PaymentAttempt where
  make pk :=
    { pk := pk
      orderId := order.pk
      status := .pending
      providerPaymentId := ""
      providerTransactionId := ""
      amount := amount
      currency := order.currency
      amount_pos := h }
  pk_make _ := rfl

/-- The digits of an amount of money, cents included. -/
def amountDigits : ℕ := 10

def maxProviderIdLength : ℕ := 255

/-- Create a payment attempt from the order's current price snapshot. -/
def createPaymentAttempt (db : Db) (orderPk : ℕ) : Result (Db × PaymentAttempt) := do
  let order ← db.getOrder orderPk
  let amount ← orRaise (orderTotal (db.orderLines order.pk))
    (.invalidPaymentAttempt "cannot create payment attempt for an unpriced order")
  if h : 0 < amount then
    require (db.paymentAttempts.select (pendingOf order.pk) = [])
      (.invalidPaymentAttempt
        ("order " ++ toString order.pk ++ " already has a pending payment attempt"))
    requireNumeric amountDigits amount
    let row := newAttempt order amount h
    return ({ db with paymentAttempts := db.paymentAttempts.insert row },
      row.make db.paymentAttempts.next)
  else throw (.invalidPaymentAttempt "payment amount must be positive")

/-- The rewrite of an attempt's status. -/
def setPaymentStatus (status : PaymentStatus) : Edit PaymentAttempt where
  apply a := { a with status := status }
  pk_apply _ := rfl

/-- Cancel every pending payment attempt for an order. -/
def cancelPendingPaymentAttemptsForOrder (db : Db) (orderPk : ℕ) : Result Db := do
  let order ← db.getOrder orderPk
  let attempts := db.paymentAttempts.select (pendingOf order.pk)
  return { db with
    paymentAttempts := attempts.foldl
      (fun t a => t.put ((setPaymentStatus .cancelled).apply a)) db.paymentAttempts }

/-- `attempt.save(update_fields=...)` on a locked row. -/
def Db.saveAttempt (db : Db) (attempt : PaymentAttempt) : Db :=
  { db with paymentAttempts := db.paymentAttempts.put attempt }

/-- The attempt after a successful payment; a transaction id must fit its column. -/
def PaymentAttempt.succeeded (attempt : PaymentAttempt) (providerTransactionId : Option String) :
    Result PaymentAttempt :=
  match providerTransactionId with
  | none => return { attempt with status := .succeeded }
  | some transactionId => do
      let transactionId := Text.strip transactionId
      require (transactionId ≠ "")
        (.invalidPaymentAttempt "provider transaction id cannot be empty")
      requireFits maxProviderIdLength transactionId
      return { attempt with providerTransactionId := transactionId, status := .succeeded }

/-- Move one pending payment attempt to SUCCEEDED. -/
def markPaymentAttemptSucceeded (db : Db) (attemptPk : ℕ)
    (providerTransactionId : Option String) : Result Db := do
  let attempt ← db.getAttempt attemptPk
  require (attempt.status = .pending)
    (.invalidPaymentAttempt "only pending payment attempts can succeed")
  let attempt ← attempt.succeeded providerTransactionId
  return db.saveAttempt attempt

/-- Move one pending payment attempt to FAILED. -/
def markPaymentAttemptFailed (db : Db) (attemptPk : ℕ) : Result Db := do
  let attempt ← db.getAttempt attemptPk
  require (attempt.status = .pending)
    (.invalidPaymentAttempt "only pending payment attempts can fail")
  return db.saveAttempt { attempt with status := .failed }

/-! ### Hosted payment sessions -/

/-- What the provider hands back for a new hosted payment. -/
structure HostedPaymentSession where
  providerPaymentId : String
  redirectUrl : String
  deriving DecidableEq, Repr

/-- The unlocked check of `create_hosted_payment_session`, before the provider call. -/
def checkHostedPaymentSession (db : Db) (attemptPk : ℕ) : Result PaymentAttempt := do
  let attempt ← db.getAttempt attemptPk
  require (attempt.status = .pending) (.invalidPaymentAttempt
    "only pending payment attempts can create a hosted payment session")
  require (attempt.providerPaymentId = "")
    (.invalidPaymentAttempt "payment attempt already has a provider payment")
  return attempt

/-- The locked re-check and bind of `create_hosted_payment_session`, after the provider
    call.  The column must hold the provider id, and the table admits it once. -/
def bindHostedPaymentSession (db : Db) (attemptPk : ℕ) (session : HostedPaymentSession) :
    Result Db := do
  let lockedAttempt ← db.getAttempt attemptPk
  require (lockedAttempt.status = .pending) (.invalidPaymentAttempt
    "payment attempt changed state while provider payment was created")
  require (lockedAttempt.providerPaymentId = "")
    (.invalidPaymentAttempt "payment attempt already has a provider payment")
  requireFits maxProviderIdLength session.providerPaymentId
  require (session.providerPaymentId = "" ∨ ∀ a ∈ db.paymentAttempts.rows,
      a.pk ≠ lockedAttempt.pk → a.providerPaymentId ≠ session.providerPaymentId)
    (.integrityError "unique_provider_payment_id")
  return db.saveAttempt { lockedAttempt with providerPaymentId := session.providerPaymentId }

/-- Create and persist a hosted payment session, when nothing else runs between the check
    and the bind. -/
def createHostedPaymentSession (db : Db) (attemptPk : ℕ) (session : HostedPaymentSession) :
    Result (Db × HostedPaymentSession) := do
  let _ ← checkHostedPaymentSession db attemptPk
  return (← bindHostedPaymentSession db attemptPk session, session)

/-! ### Reconciliation -/

inductive ExternalPaymentStatus where
  | pending | succeeded | failed
  deriving DecidableEq, Repr

/-- Provider-authoritative payment state. -/
structure ExternalPaymentState where
  providerPaymentId : String
  status : ExternalPaymentStatus
  providerTransactionId : Option String
  hostedPaymentUrl : Option String
  deriving DecidableEq, Repr

/-- `bool(text)` of an optional text. -/
def truthy (s : Option String) : Bool := s.any (· ≠ "")

/-- What is left to do for an attempt, given the provider's state and the attempt re-read. -/
inductive ReconciliationStep where
  | done
  | onSucceeded
  | onFailed
  deriving DecidableEq, Repr

def PaymentStatus.value : PaymentStatus → String
  | .pending => "pending"
  | .succeeded => "succeeded"
  | .failed => "failed"
  | .cancelled => "cancelled"

/-- The decision of `_apply_reconciliation` on the refreshed attempt. -/
def reconciliationStep (attempt : PaymentAttempt) (external : ExternalPaymentState) :
    Result ReconciliationStep :=
  match external.status with
  | .pending => return .done
  | .succeeded =>
      if attempt.status = .succeeded then do
        require (¬(truthy external.providerTransactionId = true
            ∧ attempt.providerTransactionId ≠ ""
            ∧ external.providerTransactionId ≠ some attempt.providerTransactionId))
          (.paymentReconciliationConflict
            "provider transaction id conflicts with local payment")
        return .done
      else do
        require (attempt.status = .pending) (.paymentReconciliationConflict
          ("provider reports successful payment for local " ++ attempt.status.value ++ " attempt"))
        return .onSucceeded
  | .failed =>
      if attempt.status = .failed ∨ attempt.status = .cancelled then return .done
      else do
        require (attempt.status ≠ .succeeded) (.paymentReconciliationConflict
          "provider reports failed payment for locally succeeded attempt")
        return .onFailed

/-- The attempt loaded for reconciliation; it must have a provider payment id. -/
def loadForReconciliation (db : Db) (attemptPk : ℕ) : Result PaymentAttempt := do
  let attempt ← db.getAttempt attemptPk
  require (attempt.providerPaymentId ≠ "")
    (.invalidPaymentAttempt "payment attempt has no provider payment id")
  return attempt

/-- The provider must answer for the payment asked about. -/
def checkExternalPaymentState (attempt : PaymentAttempt) (external : ExternalPaymentState) :
    Result Unit :=
  require (external.providerPaymentId = attempt.providerPaymentId)
    (.paymentReconciliationConflict "provider returned a different payment id")

/-- The unlocked re-read of `_apply_reconciliation`, with the decision it leads to. -/
def rereadAttempt (db : Db) (attemptPk : ℕ) (external : ExternalPaymentState) :
    Result (PaymentAttempt × ReconciliationStep) := do
  let attempt ← db.getAttempt attemptPk
  let step ← reconciliationStep attempt external
  return (attempt, step)

/-- What the decision runs, in a transaction of its own. -/
def ReconciliationStep.run (db : Db) (attemptPk : ℕ) (external : ExternalPaymentState)
    (onSucceeded : Db → ℕ → Option String → Result Db) (onFailed : Db → ℕ → Result Db) :
    ReconciliationStep → Result Db
  | .done => return db
  | .onSucceeded => onSucceeded db attemptPk external.providerTransactionId
  | .onFailed => onFailed db attemptPk

/-- Reconcile local payment state against provider-authoritative state, when nothing else
    runs in between. -/
def reconcilePaymentAttempt (db : Db) (attemptPk : ℕ) (external : ExternalPaymentState)
    (onSucceeded : Db → ℕ → Option String → Result Db) (onFailed : Db → ℕ → Result Db) :
    Result Db := do
  let attempt ← loadForReconciliation db attemptPk
  checkExternalPaymentState attempt external
  let (_, step) ← rereadAttempt db attemptPk external
  step.run db attemptPk external onSucceeded onFailed

end SwedeSweets
