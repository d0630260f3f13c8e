import SwedeSweets.Retail.Services

namespace SwedeSweets

open Relational Fallible

/-!
# Retail carts

A cart is mutable purchase intent before an order exists: its lines name a commercial price and a
quantity, and prices are resolved when the cart is checked out
(`createRetailCheckoutFromCart`), which deletes it.

The rows of the carts stand in tables of their own, beside the others (`RetailDb`).
-/

/-- Mutable retail purchase intent; only the identity of its key matters. -/
structure RetailCart where
  pk : ℕ
  deriving DecidableEq, Repr

instance : Row RetailCart := ⟨RetailCart.pk⟩

@[simp] theorem pk_retailCart (c : RetailCart) : Row.pk c = c.pk := rfl

/-- One selected retail CommercialPrice in a mutable cart. -/
@[ext]
structure RetailCartLine where
  pk : ℕ
  cartId : ℕ
  commercialPriceId : ℕ
  quantity : ℕ
  quantity_pos : 0 < quantity

instance : DecidableEq RetailCartLine := fun _ _ => decidable_of_iff' _ RetailCartLine.ext_iff

instance : Row RetailCartLine := ⟨RetailCartLine.pk⟩

@[simp] theorem pk_retailCartLine (l : RetailCartLine) : Row.pk l = l.pk := rfl

/-- The database with the tables of the carts. -/
structure RetailDb extends Db where
  carts : Table RetailCart
  cartLines : Table RetailCartLine

/-- `cart.lines.order_by("id")`. -/
def RetailDb.linesOf (db : RetailDb) (cartPk : ℕ) : List RetailCartLine :=
  db.cartLines.select (fun l => l.cartId = cartPk)

/-- The lines of a cart are the lines that name it. -/
@[simp] theorem RetailDb.mem_linesOf {db : RetailDb} {cartPk : ℕ} {l : RetailCartLine} :
    l ∈ db.linesOf cartPk ↔ l ∈ db.cartLines ∧ l.cartId = cartPk := by
  simp [RetailDb.linesOf]

/-- `cart.delete()`, which deletes the lines of the cart first. -/
def RetailDb.deleteCart (db : RetailDb) (cartPk : ℕ) : RetailDb :=
  { db with
    cartLines := db.cartLines.delete (fun l => l.cartId = cartPk)
    carts := db.carts.delete (fun c => c.pk = cartPk) }

/-! ### Checks -/

def validateCartQuantity (quantity : ℤ) : Result Unit :=
  require (minRetailLineQuantity ≤ quantity ∧ quantity ≤ maxRetailLineQuantity)
    (.invalidRetailCart "invalid retail cart line quantity")

def lockRetailCart (db : RetailDb) (cartPk : ℕ) : Result RetailCart :=
  orRaise (db.carts.get? cartPk) (.invalidRetailCart "retail cart does not exist")

def getLockedCartLine (db : RetailDb) (cart : RetailCart) (linePk : ℕ) : Result RetailCartLine :=
  orRaise ((db.linesOf cart.pk).find? (fun l => l.pk = linePk))
    (.invalidRetailCart "retail cart line does not belong to cart")

/-- `.filter(cart=cart, commercial_price=commercial_price).first()`. -/
def findCartLine (db : RetailDb) (cartPk commercialPriceId : ℕ) : Option RetailCartLine :=
  (db.linesOf cartPk).find? (fun l => l.commercialPriceId = commercialPriceId)

/-- The line with another quantity; the table admits positive quantities only. -/
def RetailCartLine.resize (line : RetailCartLine) (quantity : ℤ) : Result RetailCartLine :=
  if h : 0 < quantity.toNat then return { line with quantity := quantity.toNat, quantity_pos := h }
  else throw (.integrityError "retail_cart_line_quantity_positive")

/-- The row of a new line; the table admits positive quantities only. -/
def newCartLine (cartPk commercialPriceId : ℕ) (quantity : ℤ) : Result (NewRow RetailCartLine) :=
  if h : 0 < quantity.toNat then
    return ⟨fun pk => ⟨pk, cartPk, commercialPriceId, quantity.toNat, h⟩, fun _ => rfl⟩
  else throw (.integrityError "retail_cart_line_quantity_positive")

/-! ### Mutations -/

/-- Add one retail CommercialPrice, merging an existing matching line. -/
def addRetailCartLine (db : RetailDb) (cartPk commercialPriceId : ℕ) (quantity : ℤ) :
    Result RetailDb := do
  validateCartQuantity quantity
  let cart ← lockRetailCart db cartPk
  let (commercialPrice, _, _) ← getRetailPriceAndAmount db.toDb commercialPriceId .eur
  match findCartLine db cart.pk commercialPrice.pk with
  | some existingLine => do
      let newQuantity := existingLine.quantity + quantity
      validateCartQuantity newQuantity
      let line ← existingLine.resize newQuantity
      return { db with cartLines := db.cartLines.put line }
  | none => do
      let row ← newCartLine cart.pk commercialPrice.pk quantity
      return { db with cartLines := db.cartLines.insert row }

/-- Set the quantity of one line that belongs to the given cart. -/
def updateRetailCartLineQuantity (db : RetailDb) (cartPk linePk : ℕ) (quantity : ℤ) :
    Result RetailDb := do
  validateCartQuantity quantity
  let cart ← lockRetailCart db cartPk
  let line ← getLockedCartLine db cart linePk
  let line ← line.resize quantity
  return { db with cartLines := db.cartLines.put line }

/-- Remove one line that belongs to the given cart. -/
def removeRetailCartLine (db : RetailDb) (cartPk linePk : ℕ) : Result RetailDb := do
  let cart ← lockRetailCart db cartPk
  let line ← getLockedCartLine db cart linePk
  return { db with cartLines := db.cartLines.delete (fun l => l.pk = line.pk) }

/-- Remove every line from a retail cart. -/
def clearRetailCart (db : RetailDb) (cartPk : ℕ) : Result RetailDb := do
  let cart ← lockRetailCart db cartPk
  return { db with cartLines := db.cartLines.delete (fun l => l.cartId = cart.pk) }

/-- The input of a checkout for one cart line. -/
def RetailCartLine.input (line : RetailCartLine) : RetailOrderLineInput :=
  ⟨line.commercialPriceId, line.quantity⟩

/-- Convert one mutable retail cart into a validated retail checkout. -/
def createRetailCheckoutFromCart (rt : Runtime) (db : RetailDb) (cartPk : ℕ)
    (buyer : AnonymousBuyerInput) : Result RetailDb := do
  let cart ← lockRetailCart db cartPk
  let cartLines := db.linesOf cart.pk
  require (cartLines ≠ []) (.invalidRetailCart "retail cart is empty")
  let ordered ← createPendingRetailOrder rt db.toDb buyer (cartLines.map RetailCartLine.input)
  return ({ db with toDb := ordered } : RetailDb).deleteCart cart.pk

/-! ### What the checks let through -/

/-- A cart is locked by its key. -/
theorem lockRetailCart_eq_ok {db : RetailDb} {cartPk : ℕ} {c : RetailCart} :
    lockRetailCart db cartPk = .ok c ↔ c ∈ db.carts ∧ c.pk = cartPk := by
  simp [lockRetailCart, Table.get?_eq_some]

theorem validateCartQuantity_eq_ok {quantity : ℤ} {u : Unit} :
    validateCartQuantity quantity = .ok u ↔ 1 ≤ quantity ∧ quantity ≤ 20 := require_eq_ok

/-- A resized line keeps its key, cart and offer. -/
theorem RetailCartLine.resize_eq_ok {line line' : RetailCartLine} {quantity : ℤ}
    (h : line.resize quantity = .ok line') : line'.pk = line.pk ∧ line'.cartId = line.cartId
      ∧ line'.commercialPriceId = line.commercialPriceId ∧ (line'.quantity : ℤ) = quantity := by
  unfold RetailCartLine.resize at h
  by_cases hq : 0 < quantity.toNat
  · rw [dif_pos hq, pure_eq_ok] at h
    subst h
    exact ⟨rfl, rfl, rfl, Int.toNat_of_nonneg (by omega)⟩
  · rw [dif_neg hq] at h
    cases h

/-- A new line has the cart, the offer and the quantity it was made for. -/
theorem newCartLine_eq_ok {cartPk k : ℕ} {quantity : ℤ} {row : NewRow RetailCartLine}
    (h : newCartLine cartPk k quantity = .ok row) (n : ℕ) : (row.make n).cartId = cartPk
      ∧ (row.make n).commercialPriceId = k ∧ ((row.make n).quantity : ℤ) = quantity := by
  unfold newCartLine at h
  by_cases hq : 0 < quantity.toNat
  · rw [dif_pos hq, pure_eq_ok] at h
    subst h
    exact ⟨rfl, rfl, Int.toNat_of_nonneg (by omega)⟩
  · rw [dif_neg hq] at h
    cases h

/-- A retail price is on file, enabled, for an active product and with an amount in the currency. -/
theorem getRetailPrice_eq_ok {db : Db} {k : ℕ} {currency : Currency}
    {r : CommercialPrice × Product × PriceAmount}
    (h : getRetailPriceAndAmount db k currency = .ok r) : r.1 ∈ db.commercialPrices ∧ r.1.pk = k
      ∧ db.getProduct r.1.productId = .ok r.2.1 ∧ r.1.channel = .retail ∧ r.1.enabled = true
      ∧ r.2.1.active = true ∧ r.1.findAmount currency = some r.2.2 := by
  unfold getRetailPriceAndAmount at h
  simp only [bind_eq_ok, orRaise_eq_ok, require_eq_ok, exists_const, pure_eq_ok] at h
  obtain ⟨price, hprice, product, hproduct, hchannel, henabled, hactive, amount, hamount, rfl⟩ := h
  obtain ⟨hmem, hpk⟩ := Table.get?_eq_some.mp hprice
  exact ⟨hmem, hpk, hproduct, hchannel, henabled, hactive, hamount⟩

end SwedeSweets
