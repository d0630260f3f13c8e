import SwedeSweets.Business.Services
import SwedeSweets.Fulfillment.Services
import SwedeSweets.Inventory.Services
import SwedeSweets.Lib.Transition
import SwedeSweets.Retail.Services

namespace SwedeSweets

open Relational Fallible Transition

/-!
# The system

A `State` is the clock of the last call and the database.  One step runs one operation, as
one atomic call, at a clock that is not earlier.  Operations are the services of the
portals; `catalog` is the environment, which may put any products, offers and postal areas
in place between two calls.
-/

/-- One call into the system. -/
inductive Op where
  | catalog (products : Table Product) (commercialPrices : Table CommercialPrice)
      (postalAreas : Table RetailPostalArea)
  | createBatch (productPk : ℕ) (quantity : ℤ) (bestBefore : Date) (location : String)
      (batchId : Option String) (today : Option Date) (allowNonFutureBestBefore : Bool)
      (user : Option ℕ)
  | updateBatch (batchPk : ℕ) (quantity : ℤ) (bestBefore : Date) (location : String)
      (user : Option ℕ)
  | closeBatch (batchPk : ℕ) (user : Option ℕ)
  | openDraft (customer : ℕ)
  | addDraftLine (orderPk : ℕ) (line : ResolvedOrderLine)
  | setDraftLine (orderPk orderLineId : ℕ) (quantityInUnits : ℤ)
  | removeDraftLine (orderPk orderLineId : ℕ)
  | placeOrder (orderPk : ℕ) (user : Option ℕ)
  | createOrder (customer : ℕ) (lines : List OrderLineInput) (user : Option ℕ)
  | updatePlacedOrder (orderPk : ℕ) (lines : List OrderLineInput) (user : Option ℕ)
  | opsCreateOrder (customer : ℕ) (lines : List BusinessOfferLineInput) (user : Option ℕ)
  | opsUpdatePlacedOrder (orderPk : ℕ) (lines : List BusinessOfferLineInput) (user : Option ℕ)
  | createPendingRetailOrder (buyer : AnonymousBuyerInput) (lines : List RetailOrderLineInput)
  | startRetailPayment (checkoutPk : ℕ)
  | beginRetailHostedPayment (checkoutPk : ℕ) (session : HostedPaymentSession)
  | retryRetailHostedPayment (attemptPk : ℕ) (session : HostedPaymentSession)
  | completeRetailPayment (attemptPk : ℕ) (providerTransactionId : Option String)
  | failRetailPayment (attemptPk : ℕ)
  | reconcileRetailPayment (attemptPk : ℕ) (external : ExternalPaymentState)
  | cancelPendingPaymentAttempts (orderPk : ℕ)
  | packOrder (orderPk : ℕ) (user : Option ℕ)
  | deliverOrder (orderPk : ℕ) (user : Option ℕ)
  | cancelOrder (orderPk : ℕ) (user : Option ℕ) (reason note : String)

/-- The database after a call that runs in one transaction: what it raises is rolled back. -/
def Db.commit (db : Db) : Result Db → Db
  | .ok db' => db'
  | .error _ => db

namespace Op

/-- The outcome of an operation that runs in one transaction; the two that commit halfway
    are `none`. -/
def atomic (rt : Runtime) (db : Db) : Op → Option (Result Db)
  | .catalog products commercialPrices postalAreas =>
      some (.ok { db with
        products := products, commercialPrices := commercialPrices, postalAreas := postalAreas })
  | .createBatch productPk quantity bestBefore location batchId today allow user =>
      some (SwedeSweets.createBatch rt db productPk quantity bestBefore location batchId today
        allow user)
  | .updateBatch batchPk quantity bestBefore location user =>
      some (SwedeSweets.updateBatch rt db batchPk quantity bestBefore location user)
  | .closeBatch batchPk user => some (SwedeSweets.closeBatch rt db batchPk user)
  | .openDraft customer =>
      some ((Business.getOrCreateCustomerDraftOrder rt db customer).map Prod.fst)
  | .addDraftLine orderPk line => some (do
      Business.requireBusinessOrder db orderPk
      addDraftOrderLine db orderPk line)
  | .setDraftLine orderPk orderLineId quantityInUnits => some (do
      Business.requireBusinessOrder db orderPk
      setDraftOrderLineQuantity db orderPk orderLineId quantityInUnits)
  | .removeDraftLine orderPk orderLineId => some (do
      Business.requireBusinessOrder db orderPk
      removeDraftOrderLine db orderPk orderLineId)
  | .placeOrder orderPk user => some (Business.placeOrder rt db orderPk user)
  | .createOrder customer lines user => some (Business.createOrder rt db customer lines user)
  | .updatePlacedOrder orderPk lines user =>
      some (Business.updatePlacedOrder rt db orderPk lines user)
  | .opsCreateOrder _ _ _ => none
  | .opsUpdatePlacedOrder orderPk lines user =>
      some (OpsPortal.updatePlacedOrder rt db orderPk lines user)
  | .createPendingRetailOrder buyer lines =>
      some (SwedeSweets.createPendingRetailOrder rt db buyer lines)
  | .startRetailPayment checkoutPk =>
      some ((SwedeSweets.startRetailPayment rt db checkoutPk).map Prod.fst)
  | .beginRetailHostedPayment _ _ => none
  | .retryRetailHostedPayment attemptPk session =>
      some ((SwedeSweets.retryRetailHostedPayment db attemptPk session).map Prod.fst)
  | .completeRetailPayment attemptPk providerTransactionId =>
      some (SwedeSweets.completeRetailPayment rt db attemptPk providerTransactionId)
  | .failRetailPayment attemptPk => some (SwedeSweets.failRetailPayment db attemptPk)
  | .reconcileRetailPayment attemptPk external =>
      some (SwedeSweets.reconcileRetailPayment rt db attemptPk external)
  | .cancelPendingPaymentAttempts orderPk =>
      some (cancelPendingPaymentAttemptsForOrder db orderPk)
  | .packOrder orderPk user => some (Fulfillment.packOrder rt db orderPk user)
  | .deliverOrder orderPk user => some (SwedeSweets.deliverOrder rt db orderPk user)
  | .cancelOrder orderPk user reason note =>
      some (Fulfillment.cancelOrder rt db orderPk user reason note)

/-- The database after an operation. -/
def exec (rt : Runtime) (db : Db) (op : Op) : Db :=
  match op with
  | .opsCreateOrder customer lines user => (OpsPortal.createOrder rt db customer lines user).1
  | .beginRetailHostedPayment checkoutPk session =>
      (SwedeSweets.beginRetailHostedPayment rt db checkoutPk session).1
  | op => (op.atomic rt db).elim db db.commit

end Op

/-- The clock of the last call, and the database. -/
structure State where
  clock : Time
  db : Db

/-- The state before the first call. -/
def State.init : State := ⟨0, Db.empty⟩

/-- One operation at a clock that is not earlier than that of the last. -/
def SystemStep (s : State) (l : Runtime × Op) (t : State) : Prop :=
  s.clock ≤ l.1.now ∧ t = ⟨l.1.now, l.2.exec l.1 s.db⟩

/-- The states some finite run of operations leads to. -/
def Reachable (s : State) : Prop := ∃ ls, Run SystemStep State.init ls s

/-- The state after some operations, run one after the other. -/
def State.after (s : State) (ls : List (Runtime × Op)) : State :=
  ls.foldl (fun s l => ⟨l.1.now, l.2.exec l.1 s.db⟩) s

/-- The clock does not go backwards, from `now` on. -/
def ClockForward : Time → List (Runtime × Op) → Prop
  | _, [] => True
  | now, l :: ls => now ≤ l.1.now ∧ ClockForward l.1.now ls

instance : ∀ now ls, Decidable (ClockForward now ls)
  | _, [] => .isTrue trivial
  | now, l :: ls =>
      have : Decidable (ClockForward l.1.now ls) := instDecidableClockForward l.1.now ls
      inferInstanceAs (Decidable (now ≤ l.1.now ∧ ClockForward l.1.now ls))

/-- Operations with forward clocks are a run of the system. -/
theorem State.run_after {s : State} {ls : List (Runtime × Op)} (h : ClockForward s.clock ls) :
    Run SystemStep s ls (s.after ls) := by
  induction ls generalizing s with
  | nil => exact Run.nil s
  | cons l ls ih =>
    have hhead : Run SystemStep s [l] ⟨l.1.now, l.2.exec l.1 s.db⟩ := Run.single ⟨h.1, rfl⟩
    exact hhead.append (ih (s := ⟨l.1.now, l.2.exec l.1 s.db⟩) h.2)

/-- The state after a list of operations is reachable, if the clock goes forward. -/
theorem reachable_after (ls : List (Runtime × Op)) (h : ClockForward 0 ls) :
    Reachable (State.init.after ls) := ⟨ls, State.run_after h⟩

end SwedeSweets
