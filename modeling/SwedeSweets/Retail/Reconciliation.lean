import SwedeSweets.Retail.Services

namespace SwedeSweets

open Relational Fallible

/-!
# Batch reconciliation

`reconcile_pending_retail_payments` takes a snapshot of the ids of the PENDING retail attempts
and reconciles each one in a unit of work of its own.  `PaymentProvider` stands for the payment
provider: for each attempt, how the default provider is resolved and what it then answers, or
what either of the two raises.
-/

/-- The provider a call on an attempt resolves, and its answer for a provider payment id. -/
abbrev PaymentProvider := ℕ → Result (String → Result ExternalPaymentState)

/-- The PENDING attempts whose order was made in a channel, in stable processing order.  SumUp is
    the only provider there is. -/
def listPendingPaymentAttemptIds (db : Db) (orderChannel : Channel) : List ℕ :=
  (db.paymentAttempts.select (fun a => a.status = .pending
    && (db.orders.get? a.orderId).any (fun o => o.channel = orderChannel))).map PaymentAttempt.pk

/-- `reconcile_retail_payment`, the call to the provider included. -/
def reconcileWithProvider (rt : Runtime) (provider : PaymentProvider) (db : Db)
    (attemptPk : ℕ) : Result Db := do
  let getPayment ← provider attemptPk
  let attempt ← loadForReconciliation db attemptPk
  let external ← getPayment attempt.providerPaymentId
  reconcileRetailPayment rt db attemptPk external

/-- What became of one attempt of a batch. -/
inductive AttemptOutcome where
  /-- It disappeared before it was reconciled. -/
  | disappeared
  /-- It was settled since the snapshot, and is skipped. -/
  | settled
  /-- It has no provider payment id. -/
  | unresolved
  | raised
  | reconciled (status : PaymentStatus)
  deriving DecidableEq, Repr

/-- The body of the loop.  Whatever the reconciliation raises is caught. -/
def reconcileAttempt (rt : Runtime) (provider : PaymentProvider) (db : Db) (attemptId : ℕ) :
    Db × AttemptOutcome :=
  match db.getAttempt attemptId with
  | .error _ => (db, .disappeared)
  | .ok attempt =>
      if attempt.status ≠ .pending then (db, .settled)
      else if attempt.providerPaymentId = "" then (db, .unresolved)
      else
        match reconcileWithProvider rt provider db attemptId with
        | .error _ => (db, .raised)
        | .ok db' =>
            match db'.getAttempt attemptId with
            | .error _ => (db', .raised)
            | .ok reconciled => (db', .reconciled reconciled.status)

/-- The loop over the ids.  `meanwhile` is what other workers commit before the attempt of an id
    is loaded. -/
def reconcileAttempts (rt : Runtime) (provider : PaymentProvider) (meanwhile : ℕ → Db → Db) :
    List ℕ → Db → Db × List AttemptOutcome
  | [], db => (db, [])
  | attemptId :: attemptIds, db =>
      let (db, outcome) := reconcileAttempt rt provider (meanwhile attemptId db) attemptId
      let (db, outcomes) := reconcileAttempts rt provider meanwhile attemptIds db
      (db, outcome :: outcomes)

structure PaymentReconciliationSummary where
  selected : ℕ
  checked : ℕ
  succeeded : ℕ
  failed : ℕ
  pending : ℕ
  cancelled : ℕ
  unresolved : ℕ
  errors : ℕ
  deriving DecidableEq, Repr

namespace PaymentReconciliationSummary

/-- The counters before the loop. -/
def zero (selected : ℕ) : PaymentReconciliationSummary := ⟨selected, 0, 0, 0, 0, 0, 0, 0⟩

/-- The counters after one more attempt. -/
def count (s : PaymentReconciliationSummary) : AttemptOutcome → PaymentReconciliationSummary
  | .disappeared => { s with errors := s.errors + 1 }
  | .settled => s
  | .unresolved => { s with unresolved := s.unresolved + 1 }
  | .raised => { s with checked := s.checked + 1, errors := s.errors + 1 }
  | .reconciled .succeeded => { s with checked := s.checked + 1, succeeded := s.succeeded + 1 }
  | .reconciled .failed => { s with checked := s.checked + 1, failed := s.failed + 1 }
  | .reconciled .pending => { s with checked := s.checked + 1, pending := s.pending + 1 }
  | .reconciled .cancelled => { s with checked := s.checked + 1, cancelled := s.cancelled + 1 }

end PaymentReconciliationSummary

/-- Reconcile the attempts of a list of ids independently, and count what became of them. -/
def reconcileSelected (rt : Runtime) (provider : PaymentProvider) (meanwhile : ℕ → Db → Db)
    (attemptIds : List ℕ) (db : Db) : Db × List AttemptOutcome × PaymentReconciliationSummary :=
  let (db, outcomes) := reconcileAttempts rt provider meanwhile attemptIds db
  (db, outcomes, outcomes.foldl .count (.zero attemptIds.length))

/-- Reconcile pending SumUp-backed retail payments independently. -/
def reconcilePendingRetailPayments (rt : Runtime) (provider : PaymentProvider)
    (meanwhile : ℕ → Db → Db) (db : Db) : Db × List AttemptOutcome × PaymentReconciliationSummary :=
  reconcileSelected rt provider meanwhile (listPendingPaymentAttemptIds db .retail) db

end SwedeSweets
