import SwedeSweets.Orders.Services
import SwedeSweets.Payments.Services
import SwedeSweets.Pricing.Selectors
import SwedeSweets.Reservations.Services

namespace SwedeSweets

open Relational Fallible

/-!
# Retail checkout

A validated retail order is created without reserving stock
(`createPendingRetailOrder`); starting payment holds its stock for a while
(`startRetailPayment`); the outcome of the payment either places the order on the held
stock (`completeRetailPayment`) or lets the stock go (`failRetailPayment`).
-/

/-! ### Rules -/

def minRetailLineQuantity : ℤ := 1
def maxRetailLineQuantity : ℤ := 20
def maxRetailOrderLines : ℕ := 20

/-- 1000.00, in cents. -/
def maxRetailOrderTotal : Cents := 100000

def minutes (n : ℕ) : Time := n * 60 * 1000000

def retailCheckoutWindow : Time := minutes 90
def retailPaymentReservationWindow : Time := minutes 35

/-- Whether a destination is delivered to. -/
def isSupportedRetailDestination (rt : Runtime) (db : Db) (countryCode postalCode city : String) :
    Bool :=
  let country := rt.upper (Text.strip countryCode)
  let postal := Text.strip postalCode
  let normalizedCity := Text.collapse (Text.strip city)
  if country = "" ∨ postal = "" ∨ normalizedCity = "" then false
  else
    db.postalAreas.rows.any (fun area =>
      area.countryCode = country && area.postalCode = postal
        && rt.iexact area.city normalizedCity && area.enabled)

/-! ### Checkout -/

structure AnonymousBuyerInput where
  firstName : String
  lastName : String
  email : String
  phoneNumber : String
  country : String
  postalCode : String
  city : String
  addressLine : String
  deriving DecidableEq, Repr

structure RetailOrderLineInput where
  commercialPriceId : ℕ
  quantity : ℤ
  deriving DecidableEq, Repr

/-- Validated retail line with commercial pricing resolved server-side. -/
structure ResolvedRetailOrderLine where
  product : Product
  quantity : ℤ
  unitPrice : Cents
  commercialPrice : CommercialPrice

def ResolvedRetailOrderLine.lineTotal (line : ResolvedRetailOrderLine) : ℤ :=
  line.unitPrice * line.quantity

/-- Adapt anonymous retail input to the shared buyer contract. -/
def buyerFromAnonymousRetailInput (rt : Runtime) (buyer : AnonymousBuyerInput) : BuyerInput :=
  let firstName := Text.collapse (Text.strip buyer.firstName)
  let lastName := Text.collapse (Text.strip buyer.lastName)
  { name := String.intercalate " " ([firstName, lastName].filter (· ≠ ""))
    email := Text.strip buyer.email
    phoneNumber := Text.strip buyer.phoneNumber
    country := rt.upper (Text.strip buyer.country)
    postalCode := Text.strip buyer.postalCode
    city := Text.collapse (Text.strip buyer.city)
    addressLine := Text.collapse (Text.strip buyer.addressLine) }

def validateBuyerDestination (rt : Runtime) (db : Db) (buyer : AnonymousBuyerInput) : Result Unit :=
  require (isSupportedRetailDestination rt db buyer.country buyer.postalCode buyer.city = true)
    (.invalidRetailOrder "unsupported retail destination")

def validateRetailLines (lines : List RetailOrderLineInput) : Result Unit := do
  require (lines ≠ []) (.invalidRetailOrder "order must contain at least one line")
  require (lines.length ≤ maxRetailOrderLines)
    (.invalidRetailOrder "order contains too many lines")
  require (∀ line ∈ lines,
      minRetailLineQuantity ≤ line.quantity ∧ line.quantity ≤ maxRetailLineQuantity)
    (.invalidRetailOrder "invalid retail line quantity")

def Currency.value : Currency → String
  | .eur => "EUR"
  | .sek => "SEK"

def getRetailPriceAndAmount (db : Db) (commercialPriceId : ℕ) (currency : Currency) :
    Result (CommercialPrice × Product × PriceAmount) := do
  let commercialPrice ← orRaise (db.commercialPrices.get? commercialPriceId)
    (.invalidRetailOrder "retail commercial price does not exist")
  let product ← db.getProduct commercialPrice.productId
  require (commercialPrice.channel = .retail)
    (.invalidRetailOrder "commercial price does not belong to retail")
  require (commercialPrice.enabled = true)
    (.invalidRetailOrder "commercial price is not enabled for retail")
  require (product.active = true) (.invalidRetailOrder "product is not enabled for retail")
  let amount ← orRaise (commercialPrice.findAmount currency)
    (.invalidRetailOrder ("commercial price has no " ++ currency.value ++ " amount"))
  return (commercialPrice, product, amount)

def resolveRetailLine (rt : Runtime) (db : Db) (currency : Currency)
    (line : RetailOrderLineInput) : Result ResolvedRetailOrderLine := do
  let (commercialPrice, product, amount) ←
    getRetailPriceAndAmount db line.commercialPriceId currency
  require (¬(commercialPrice.batchId ≠ none
      ∧ db.batches.select (listBatchesForRetailPrice rt db commercialPrice currency) = []))
    (.invalidRetailOrder "batch retail price is not currently sellable")
  return ⟨product, line.quantity, amount.price, commercialPrice⟩

def validateUniqueCommercialPrices (lines : List ResolvedRetailOrderLine) : Result Unit :=
  require (lines.map (fun l => l.commercialPrice.pk)).Nodup
    (.invalidRetailOrder "duplicate retail commercial price lines are not allowed")

def calculateOrderTotal (lines : List ResolvedRetailOrderLine) : ℤ :=
  (lines.map ResolvedRetailOrderLine.lineTotal).sum

/-- The row for a resolved retail line, with its `RetailOfferSelection`. -/
def newRetailOrderLine (order : Order) (line : ResolvedRetailOrderLine) : Result NewOrderLine := do
  let row ← newOrderLine order
    ⟨line.product, line.quantity, line.commercialPrice, some line.unitPrice⟩
  return { row with retailOfferSelection := some line.commercialPrice.pk }

/-- Create a validated retail checkout without reserving stock. -/
def createPendingRetailOrder (rt : Runtime) (db : Db) (buyer : AnonymousBuyerInput)
    (lines : List RetailOrderLineInput) : Result Db := do
  validateBuyerDestination rt db buyer
  validateRetailLines lines
  let resolvedLines ← lines.mapM (resolveRetailLine rt db .eur)
  validateUniqueCommercialPrices resolvedLines
  let total := calculateOrderTotal resolvedLines
  require (total ≤ (maxRetailOrderTotal : ℤ))
    (.invalidRetailOrder "order total exceeds maximum allowed amount")
  snapshotBuyer (buyerFromAnonymousRetailInput rt buyer)
  let (db, order) ← insertOrder rt db .retail .eur none
  let rows ← resolvedLines.mapM (newRetailOrderLine order)
  let checkout : NewRow RetailCheckoutSession :=
    ⟨fun pk => ⟨pk, order.pk, rt.now + retailCheckoutWindow⟩, fun _ => rfl⟩
  return { db with
    lines := db.lines.insertAll (rows.map NewOrderLine.row)
    retailCheckouts := db.retailCheckouts.insert checkout }

/-! ### Payment -/

/-- Reserve one retail line until the payment window ends. -/
def reserveRetailLine (rt : Runtime) (currency : Currency) (reservedUntil : Time) (db : Db)
    (line : OrderLine) : Result Db := do
  let selection ← orRaise line.retailOfferSelection (.invalidRetailOrder
    ("order line " ++ toString line.pk ++ " has no retail offer selection"))
  let commercialPrice ← db.getCommercialPrice selection
  let product ← db.getProduct line.productId
  (reserveOrderLineFromPool rt db line (listBatchesForRetailPrice rt db commercialPrice currency)
    line.quantityInUnits (some reservedUntil)).mapError (stockError product)

/-- Prepare one retail order for a new external payment attempt. -/
def startRetailPayment (rt : Runtime) (db : Db) (checkoutPk : ℕ) :
    Result (Db × PaymentAttempt) := do
  let now := rt.now
  let checkout ← orRaise (db.retailCheckouts.get? checkoutPk)
    (.doesNotExist "RetailCheckoutSession")
  let order ← db.getOrder checkout.orderId
  require (now < checkout.expiresAt) (.invalidRetailOrder "retail checkout has expired")
  require (order.channel = .retail)
    (.invalidRetailOrder "checkout does not belong to a retail order")
  require (order.status = .draft)
    (.invalidRetailOrder "only draft retail orders can start payment")
  require (db.paymentAttempts.select (pendingOf order.pk) = [])
    (.invalidRetailOrder "retail order already has a pending payment attempt")
  let lines := db.orderLines order.pk
  require (lines ≠ []) (.invalidRetailOrder "retail checkout has no order lines")
  let db ← cancelTemporaryReservationsForOrder db order.pk
  let reservedUntil := now + retailPaymentReservationWindow
  let db ← lines.foldlM (reserveRetailLine rt order.currency reservedUntil) db
  createPaymentAttempt db order.pk

/-- Finalize a successfully paid retail checkout. -/
def completeRetailPayment (rt : Runtime) (db : Db) (attemptPk : ℕ)
    (providerTransactionId : Option String) : Result Db := do
  let orderId := (← db.getAttempt attemptPk).orderId
  let order ← db.getOrder orderId
  let attempt ← db.getAttempt attemptPk
  require (attempt.orderId = order.pk)
    (.invalidPaymentAttempt "payment attempt order changed unexpectedly")
  require (attempt.status = .pending)
    (.invalidPaymentAttempt "only pending payment attempts can complete retail payment")
  require (order.channel = .retail)
    (.invalidRetailOrder "payment attempt does not belong to a retail order")
  let db ← placeOrder rt db order.pk (makeOrderReservationsPermanentBeforePlacement rt) none
  markPaymentAttemptSucceeded db attempt.pk providerTransactionId

/-- Finalize a failed retail payment attempt. -/
def failRetailPayment (db : Db) (attemptPk : ℕ) : Result Db := do
  let orderId := (← db.getAttempt attemptPk).orderId
  let order ← db.getOrder orderId
  let attempt ← db.getAttempt attemptPk
  require (attempt.orderId = order.pk)
    (.invalidPaymentAttempt "payment attempt order changed unexpectedly")
  require (attempt.status = .pending)
    (.invalidPaymentAttempt "only pending payment attempts can fail retail payment")
  require (order.channel = .retail)
    (.invalidRetailOrder "payment attempt does not belong to a retail order")
  require (order.status = .draft)
    (.invalidRetailOrder "only draft retail orders can fail payment")
  let db ← cancelTemporaryReservationsForOrder db order.pk
  markPaymentAttemptFailed db attempt.pk

/-- Reconcile one retail payment attempt against provider truth, when nothing else runs in
    between; `external` is what the provider answers. -/
def reconcileRetailPayment (rt : Runtime) (db : Db) (attemptPk : ℕ)
    (external : ExternalPaymentState) : Result Db :=
  reconcilePaymentAttempt db attemptPk external (completeRetailPayment rt) failRetailPayment

/-! ### Recovery -/

inductive RetailPaymentRecoveryAction where
  | continuePayment | confirmed | paymentFailed | needsSupport
  deriving DecidableEq, Repr

structure RetailPaymentRecovery where
  attempt : PaymentAttempt
  action : RetailPaymentRecoveryAction
  redirectUrl : Option String

/-- What the customer is told without asking the provider, if anything. -/
def settledRecovery (attempt : PaymentAttempt) : Option RetailPaymentRecovery :=
  if attempt.status = .succeeded then some ⟨attempt, .confirmed, none⟩
  else if attempt.status = .failed then some ⟨attempt, .paymentFailed, none⟩
  else if attempt.status = .cancelled ∧ attempt.providerPaymentId = "" then
    some ⟨attempt, .paymentFailed, none⟩
  else if attempt.providerPaymentId = "" then some ⟨attempt, .needsSupport, none⟩
  else none

/-- What the customer is told after a reconciliation that went through. -/
def reconciledRecovery (reconciled : PaymentAttempt) (external : ExternalPaymentState) :
    RetailPaymentRecovery :=
  match reconciled.status with
  | .succeeded => ⟨reconciled, .confirmed, none⟩
  | .failed => ⟨reconciled, .paymentFailed, none⟩
  | .cancelled => ⟨reconciled, .paymentFailed, none⟩
  | .pending =>
      if truthy external.hostedPaymentUrl = true then
        ⟨reconciled, .continuePayment, external.hostedPaymentUrl⟩
      else ⟨reconciled, .needsSupport, none⟩

/-- Resolve the customer-facing state of one retail payment, when nothing else runs in
    between.  Whatever reconciling raises, the customer is sent to support. -/
def recoverRetailPayment (rt : Runtime) (db : Db) (attemptPk : ℕ)
    (external : ExternalPaymentState) : Result (Db × RetailPaymentRecovery) := do
  let attempt ← db.getAttempt attemptPk
  match settledRecovery attempt with
  | some recovery => return (db, recovery)
  | none =>
      match reconcileRetailPayment rt db attemptPk external with
      | .ok db =>
          let reconciled ← db.getAttempt attemptPk
          return (db, reconciledRecovery reconciled external)
      | .error _ =>
          let attempt ← db.getAttempt attemptPk
          return (db, ⟨attempt, .needsSupport, none⟩)

/-! ### Hosted checkout -/

structure RetailPaymentRedirect where
  attempt : PaymentAttempt
  redirectUrl : String

/-- Create a hosted session for an attempt, and refresh the attempt. -/
def createRetailHostedPaymentSession (db : Db) (attemptPk : ℕ) (session : HostedPaymentSession) :
    Result (Db × RetailPaymentRedirect) := do
  let (db, session) ← createHostedPaymentSession db attemptPk session
  let attempt ← db.getAttempt attemptPk
  return (db, ⟨attempt, session.redirectUrl⟩)

/-- Start a retail payment and bind it to the hosted session the provider answers with.
    The attempt is committed before the provider is called. -/
def beginRetailHostedPayment (rt : Runtime) (db : Db) (checkoutPk : ℕ)
    (session : HostedPaymentSession) : Db × Result RetailPaymentRedirect :=
  match startRetailPayment rt db checkoutPk with
  | .error e => (db, .error e)
  | .ok (started, attempt) =>
      match createRetailHostedPaymentSession started attempt.pk session with
      | .error e => (started, .error e)
      | .ok (bound, redirect) => (bound, .ok redirect)

/-- Retry provider initialization for the same local attempt. -/
def retryRetailHostedPayment (db : Db) (attemptPk : ℕ) (session : HostedPaymentSession) :
    Result (Db × RetailPaymentRedirect) :=
  createRetailHostedPaymentSession db attemptPk session

end SwedeSweets
