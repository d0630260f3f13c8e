import SwedeSweets.Lib.Turns
import SwedeSweets.Retail.CartEffects

namespace SwedeSweets

open Relational Fallible ReadCommitted

/-!
# The cart services as transactions

`add_retail_cart_line` and `create_retail_checkout_from_cart` statement by statement
(`CartCall.tx`).  Both lock the row of the cart before they read anything.

`exec_cartTx` — on its own, the transaction does what the service computes.
-/

/-- What a statement locks: the row of a cart, or the entry of a cart and a commercial price in the
    unique index of the lines. -/
inductive CartRow where
  | cart (pk : ℕ)
  | line (cartPk commercialPriceId : ℕ)
  deriving DecidableEq

abbrev CartTx (ω : Type) := Tx CartRow RetailDb Error ω

/-- A call on a cart. -/
inductive CartCall where
  | add (commercialPriceId : ℕ) (quantity : ℤ)
  | checkout (buyer : AnonymousBuyerInput)

variable {ω : Type}

/-! ### Adding -/

/-- `_lock_retail_cart`. -/
def lockCartTx (cartPk : ℕ) (k : RetailCart → CartTx ω) : CartTx ω :=
  .lock (.cart cartPk) fun db => .attempt (lockRetailCart db cartPk) k

/-- The update of the line that was found; the quantity that is written was computed before. -/
def mergeLineTx (line : RetailCartLine) (quantity : ℤ) (k : CartTx ω) : CartTx ω :=
  .attempt (validateCartQuantity (line.quantity + quantity)) fun _ =>
  .attempt (line.resize (line.quantity + quantity)) fun row =>
  .write (fun db => { db with cartLines := db.cartLines.put row }) k

/-- `RetailCartLine.objects.create(...)`, behind the unique constraint. -/
def insertCartLineTx (cartPk commercialPriceId : ℕ) (quantity : ℤ) (k : CartTx ω) : CartTx ω :=
  .attempt (newCartLine cartPk commercialPriceId quantity) fun row =>
  .claim (.line cartPk commercialPriceId) (fun db => findCartLine db cartPk commercialPriceId = none)
    (fun _ => .write (fun db => { db with cartLines := db.cartLines.insert row }) k)
    (.raise (.integrityError "unique_retail_commercial_price_per_cart"))

/-- `add_retail_cart_line`. -/
def addRetailCartLineTx (cartPk commercialPriceId : ℕ) (quantity : ℤ) (k : CartTx ω) : CartTx ω :=
  .attempt (validateCartQuantity quantity) fun _ =>
  lockCartTx cartPk fun cart =>
  .read fun db =>
  .attempt (getRetailPriceAndAmount db.toDb commercialPriceId .eur) fun price =>
  .read fun db =>
  match findCartLine db cart.pk price.1.pk with
  | some existingLine => mergeLineTx existingLine quantity k
  | none => insertCartLineTx cart.pk price.1.pk quantity k

/-! ### Checking out -/

/-- `_resolve_retail_lines`, one line after the other. -/
def resolveLinesTx (rt : Runtime) :
    List RetailOrderLineInput → (List ResolvedRetailOrderLine → CartTx ω) → CartTx ω
  | [], k => k []
  | line :: lines, k =>
      .read fun db =>
      .attempt (resolveRetailLine rt db.toDb .eur line) fun resolved =>
      resolveLinesTx rt lines fun rest => k (resolved :: rest)

/-- The loop that creates the order lines and their selections. -/
def insertRetailLineTx (order : Order) (line : ResolvedRetailOrderLine) (k : CartTx ω) : CartTx ω :=
  .attempt (newRetailOrderLine order line) fun row =>
  .write (fun db => { db with lines := db.lines.insert row.row }) k

/-- `create_pending_retail_order`. -/
def createPendingRetailOrderTx (rt : Runtime) (buyer : AnonymousBuyerInput)
    (lines : List RetailOrderLineInput) (k : CartTx ω) : CartTx ω :=
  .read fun db =>
  .attempt (validateBuyerDestination rt db.toDb buyer) fun _ =>
  .attempt (validateRetailLines lines) fun _ =>
  resolveLinesTx rt lines fun resolvedLines =>
  .attempt (validateUniqueCommercialPrices resolvedLines) fun _ =>
  .attempt (require (calculateOrderTotal resolvedLines ≤ (maxRetailOrderTotal : ℤ))
    (.invalidRetailOrder "order total exceeds maximum allowed amount")) fun _ =>
  .attempt (snapshotBuyer (buyerFromAnonymousRetailInput rt buyer)) fun _ =>
  .clock fun now =>
  .read fun db =>
  .write (fun db => { db with orders := db.orders.insert (retailDraft now rt) }) <|
  resolvedLines.foldr (insertRetailLineTx ((retailDraft now rt).make db.orders.next)) <|
  .clock fun now =>
  .write (fun after => { after with
    retailCheckouts := after.retailCheckouts.insert
      ⟨fun pk => ⟨pk, db.orders.next, now + retailCheckoutWindow⟩, fun _ => rfl⟩ }) k

/-- `create_retail_checkout_from_cart`. -/
def createRetailCheckoutTx (rt : Runtime) (cartPk : ℕ) (buyer : AnonymousBuyerInput)
    (k : CartTx ω) : CartTx ω :=
  lockCartTx cartPk fun cart =>
  .read fun db =>
  .attempt (require (db.linesOf cart.pk ≠ []) (.invalidRetailCart "retail cart is empty")) fun _ =>
  createPendingRetailOrderTx rt buyer ((db.linesOf cart.pk).map RetailCartLine.input) <|
  .write (fun db => db.deleteCart cart.pk) k

namespace CartCall

/-- The transaction of a call; the worker signs the commit. -/
def tx (rt : Runtime) (cartPk : ℕ) (w : ω) : CartCall → CartTx ω
  | add commercialPriceId quantity =>
      addRetailCartLineTx cartPk commercialPriceId quantity (.commit [w])
  | checkout buyer => createRetailCheckoutTx rt cartPk buyer (.commit [w])

/-- The service, as one atomic step. -/
def service (rt : Runtime) (db : RetailDb) (cartPk : ℕ) : CartCall → Result RetailDb
  | add commercialPriceId quantity => addRetailCartLine db cartPk commercialPriceId quantity
  | checkout buyer => createRetailCheckoutFromCart rt db cartPk buyer

end CartCall

/-! ### One transaction on its own -/

section

variable {times : ℕ → Prop} {rt : Runtime} {db db' : RetailDb} {note : List ω} {cartPk : ℕ}
  {k : CartTx ω}

/-- On its own, locking the cart returns it. -/
theorem outcome_lockCart {k : RetailCart → CartTx ω} :
    (lockCartTx cartPk k).Outcome times db db' note ↔
      ∃ c, lockRetailCart db cartPk = .ok c ∧ (k c).Outcome times db db' note := by
  show (Tx.attempt _ _).Outcome times db db' note ↔ _
  rw [Tx.outcome_attempt]

/-- Adding does not read the clock: it does what the service computes. -/
theorem outcome_addRetailCartLine {commercialPriceId : ℕ} {quantity : ℤ} :
    (addRetailCartLineTx cartPk commercialPriceId quantity k).Outcome times db db' note ↔
      ∃ db₁, addRetailCartLine db cartPk commercialPriceId quantity = .ok db₁
        ∧ k.Outcome times db₁ db' note := by
  unfold addRetailCartLineTx addRetailCartLine
  simp only [Tx.outcome_attempt, outcome_lockCart, Tx.Outcome, bind_eq_ok]
  -- a line for the price is there, or is inserted under the unique key
  have hline : ∀ {c : RetailCart} {price : CommercialPrice},
      (match findCartLine db c.pk price.pk with
        | some existingLine => mergeLineTx existingLine quantity k
        | none => insertCartLineTx c.pk price.pk quantity k : CartTx ω).Outcome times db db' note ↔
      ∃ db₁, (match findCartLine db c.pk price.pk with
        | some existingLine => do
            validateCartQuantity (existingLine.quantity + quantity)
            let line ← existingLine.resize (existingLine.quantity + quantity)
            return { db with cartLines := db.cartLines.put line }
        | none => do
            let row ← newCartLine c.pk price.pk quantity
            return { db with cartLines := db.cartLines.insert row } : Result RetailDb) = .ok db₁
        ∧ k.Outcome times db₁ db' note := by
    intro c price
    cases hfind : findCartLine db c.pk price.pk with
    | some line =>
      simp only [mergeLineTx, Tx.outcome_attempt, Tx.Outcome, bind_eq_ok, pure_eq_ok]
      constructor
      · rintro ⟨u, hu, row, hrow, hk⟩
        exact ⟨_, ⟨u, hu, row, hrow, rfl⟩, hk⟩
      · rintro ⟨db₁, ⟨u, hu, row, hrow, rfl⟩, hk⟩
        exact ⟨u, hu, row, hrow, hk⟩
    | none =>
      simp only [insertCartLineTx, Tx.outcome_attempt, Tx.Outcome, bind_eq_ok, pure_eq_ok, hfind,
        decide_true, true_and, Bool.true_eq_false, false_and, or_false]
      constructor
      · rintro ⟨row, hrow, hk⟩
        exact ⟨_, ⟨row, hrow, rfl⟩, hk⟩
      · rintro ⟨db₁, ⟨row, hrow, rfl⟩, hk⟩
        exact ⟨row, hrow, hk⟩
  constructor
  · rintro ⟨u, hu, c, hc, price, hprice, hk⟩
    obtain ⟨db₁, hdb₁, hk⟩ := hline.mp hk
    exact ⟨db₁, ⟨u, hu, c, hc, price, hprice, hdb₁⟩, hk⟩
  · rintro ⟨db₁, ⟨u, hu, c, hc, price, hprice, hdb₁⟩, hk⟩
    exact ⟨u, hu, c, hc, price, hprice, hline.mpr ⟨db₁, hdb₁, hk⟩⟩

/-- On its own, the transaction resolves the lines as the service does. -/
theorem outcome_resolveLines {lines : List RetailOrderLineInput}
    {k : List ResolvedRetailOrderLine → CartTx ω} :
    (resolveLinesTx rt lines k).Outcome times db db' note ↔
      ∃ resolved, lines.mapM (resolveRetailLine rt db.toDb .eur) = .ok resolved
        ∧ (k resolved).Outcome times db db' note := by
  induction lines generalizing k with
  | nil => simp [resolveLinesTx]
  | cons line lines ih =>
    show (Tx.attempt _ _).Outcome times db db' note ↔ _
    simp only [Tx.outcome_attempt, ih, List.mapM_cons, bind_eq_ok, pure_eq_ok]
    constructor
    · rintro ⟨r, hr, rest, hrest, hk⟩
      exact ⟨r :: rest, ⟨r, hr, rest, hrest, rfl⟩, hk⟩
    · rintro ⟨_, ⟨r, hr, rest, hrest, rfl⟩, hk⟩
      exact ⟨r, hr, rest, hrest, hk⟩

/-- On its own, the lines are inserted one after the other. -/
theorem outcome_insertRetailLines {order : Order} {lines : List ResolvedRetailOrderLine} :
    (lines.foldr (insertRetailLineTx order) k).Outcome times db db' note ↔
      ∃ rows, lines.mapM (newRetailOrderLine order) = .ok rows ∧ k.Outcome times
        { db with lines := db.lines.insertAll (rows.map NewOrderLine.row) } db' note := by
  induction lines generalizing db with
  | nil => simp [Table.insertAll]
  | cons line lines ih =>
    show (Tx.attempt _ _).Outcome times db db' note ↔ _
    simp only [Tx.outcome_attempt, Tx.Outcome, ih, List.mapM_cons, bind_eq_ok, pure_eq_ok]
    constructor
    · rintro ⟨row, hrow, rows, hrows, hk⟩
      exact ⟨row :: rows, ⟨row, hrow, rows, hrows, rfl⟩, hk⟩
    · rintro ⟨_, ⟨row, hrow, rows, hrows, rfl⟩, hk⟩
      exact ⟨row, hrow, rows, hrows, hk⟩

/-- A checkout resolves its lines and writes the rows they give; it reads the clock twice. -/
theorem outcome_createPending {buyer : AnonymousBuyerInput} {lines : List RetailOrderLineInput} :
    (createPendingRetailOrderTx rt buyer lines k).Outcome times db db' note ↔
      ∃ resolved, resolvePendingOrder rt db.toDb buyer lines = .ok resolved
        ∧ ∃ now, times now ∧ ∃ rows,
          resolved.mapM (newRetailOrderLine ((retailDraft now rt).make db.orders.next)) = .ok rows
          ∧ ∃ later, times later ∧ k.Outcome times { db with
            toDb := db.toDb.withPendingOrder (retailDraft now rt) rows
              (later + retailCheckoutWindow) } db' note := by
  unfold createPendingRetailOrderTx resolvePendingOrder
  simp only [Tx.Outcome, Tx.outcome_attempt, outcome_resolveLines, outcome_insertRetailLines,
    bind_eq_ok, pure_eq_ok]
  constructor
  -- the statements run in the order of the service
  · rintro ⟨u, hbuyer, v, hlines, resolved, hres, x, hunique, y, htotal, z, hfits, now, hnow, rows,
      hrows, later, hlater, hk⟩
    exact ⟨resolved, ⟨u, hbuyer, v, hlines, resolved, hres, x, hunique, y, htotal, z, hfits, rfl⟩,
      now, hnow, rows, hrows, later, hlater, hk⟩
  · rintro ⟨_, ⟨u, hbuyer, v, hlines, resolved, hres, x, hunique, y, htotal, z, hfits, rfl⟩, now,
      hnow, rows, hrows, later, hlater, hk⟩
    exact ⟨u, hbuyer, v, hlines, resolved, hres, x, hunique, y, htotal, z, hfits, now, hnow, rows,
      hrows, later, hlater, hk⟩

/-- A checkout goes through when the cart is there and not empty, and its lines resolve. -/
theorem outcome_createCheckout {buyer : AnonymousBuyerInput} :
    (createRetailCheckoutTx rt cartPk buyer k).Outcome times db db' note ↔
      (∃ c ∈ db.carts, c.pk = cartPk) ∧ db.linesOf cartPk ≠ [] ∧
        ∃ resolved, resolvePendingOrder rt db.toDb buyer
          ((db.linesOf cartPk).map RetailCartLine.input) = .ok resolved
        ∧ ∃ now, times now ∧ ∃ rows,
          resolved.mapM (newRetailOrderLine ((retailDraft now rt).make db.orders.next)) = .ok rows
          ∧ ∃ later, times later ∧ k.Outcome times (db.checkedOut cartPk (retailDraft now rt) rows
            (later + retailCheckoutWindow)) db' note := by
  unfold createRetailCheckoutTx
  simp only [outcome_lockCart, lockRetailCart_eq_ok, Tx.Outcome, Tx.outcome_attempt, require_eq_ok,
    exists_const, outcome_createPending]
  constructor
  -- the cart that was locked is the one checked out
  · rintro ⟨c, ⟨hc, rfl⟩, hne, resolved, hres, now, hnow, rows, hrows, later, hlater, hk⟩
    exact ⟨⟨c, hc, rfl⟩, hne, resolved, hres, now, hnow, rows, hrows, later, hlater, hk⟩
  · rintro ⟨⟨c, hc, rfl⟩, hne, resolved, hres, now, hnow, rows, hrows, later, hlater, hk⟩
    exact ⟨c, ⟨hc, rfl⟩, hne, resolved, hres, now, hnow, rows, hrows, later, hlater, hk⟩

/-- **On its own.** At one clock the transaction commits what the service computes. -/
theorem exec_cartTx {call : CartCall} {w : ω} :
    (call.tx rt cartPk w).exec rt.now db = .ok (db', note) ↔
      note = [w] ∧ call.service rt db cartPk = .ok db' := by
  rw [Tx.exec_eq_ok]
  -- each call by the outcome of its transaction
  cases call with
  | add commercialPriceId quantity =>
    show (addRetailCartLineTx _ _ _ _).Outcome _ db db' note ↔ _
    rw [outcome_addRetailCartLine]
    constructor
    · rintro ⟨db₁, hadd, rfl, rfl⟩
      exact ⟨rfl, hadd⟩
    · rintro ⟨rfl, hadd⟩
      exact ⟨db', hadd, rfl, rfl⟩
  | checkout buyer =>
    show (createRetailCheckoutTx _ _ _ _).Outcome _ db db' note ↔ note = [w] ∧
      createRetailCheckoutFromCart rt db cartPk buyer = .ok db'
    rw [outcome_createCheckout, createRetailCheckout_eq_ok]
    constructor
    · rintro ⟨hcart, hne, resolved, hres, now, rfl, rows, hrows, later, rfl, hdb, rfl⟩
      exact ⟨rfl, hcart, hne, resolved, hres, rows, hrows, hdb⟩
    · rintro ⟨rfl, hcart, hne, resolved, hres, rows, hrows, hdb⟩
      exact ⟨hcart, hne, resolved, hres, _, rfl, rows, hrows, _, rfl, hdb, rfl⟩

end

end SwedeSweets
