import SwedeSweets.Invariants.Payments
import SwedeSweets.Retail.Carts

namespace SwedeSweets

open Relational Fallible

/-!
# What the cart services write

A checkout resolves the lines of the cart (`resolvePendingOrder`) and then inserts the order, its
lines and the session (`Db.withPendingOrder`); each order line stands for one cart line
(`RetailRow`).  Adding to a cart adds to the units of one offer (`addRetailCartLine_eq_ok`).
-/

/-! ### Resolving a checkout -/

/-- The checks on a new retail order, and its resolved lines. -/
def resolvePendingOrder (rt : Runtime) (db : Db) (buyer : AnonymousBuyerInput)
    (lines : List RetailOrderLineInput) : Result (List ResolvedRetailOrderLine) := do
  validateBuyerDestination rt db buyer
  validateRetailLines lines
  let resolvedLines ← lines.mapM (resolveRetailLine rt db .eur)
  validateUniqueCommercialPrices resolvedLines
  require (calculateOrderTotal resolvedLines ≤ (maxRetailOrderTotal : ℤ))
    (.invalidRetailOrder "order total exceeds maximum allowed amount")
  snapshotBuyer (buyerFromAnonymousRetailInput rt buyer)
  return resolvedLines

/-- The rows of a new retail order: the order, its lines, and the session. -/
def Db.withPendingOrder (db : Db) (order : NewRow Order) (rows : List NewOrderLine)
    (expiresAt : Time) : Db :=
  { db with
    orders := db.orders.insert order
    lines := db.lines.insertAll (rows.map NewOrderLine.row)
    retailCheckouts := db.retailCheckouts.insert
      ⟨fun pk => ⟨pk, db.orders.next, expiresAt⟩, fun _ => rfl⟩ }

/-- The row of a new retail draft. -/
def retailDraft (now : Time) (rt : Runtime) : NewRow Order :=
  newOrder { rt with now := now } .retail .eur none

/-- A checkout resolves its lines, and writes the rows they give. -/
theorem createPendingRetailOrder_eq_ok {rt : Runtime} {db db' : Db} {buyer : AnonymousBuyerInput}
    {lines : List RetailOrderLineInput} :
    createPendingRetailOrder rt db buyer lines = .ok db' ↔
      ∃ resolved, resolvePendingOrder rt db buyer lines = .ok resolved ∧
        ∃ rows, resolved.mapM (newRetailOrderLine ((retailDraft rt.now rt).make db.orders.next))
          = .ok rows ∧
        db.withPendingOrder (retailDraft rt.now rt) rows (rt.now + retailCheckoutWindow) = db' := by
  have hinsert : ∀ {r : Db × Order}, insertOrder rt db .retail .eur none = .ok r ↔
      ({ db with orders := db.orders.insert (retailDraft rt.now rt) },
        (retailDraft rt.now rt).make db.orders.next) = r := by
    intro r
    unfold insertOrder retailDraft
    simp
  unfold createPendingRetailOrder resolvePendingOrder
  simp only [bind_eq_ok, require_eq_ok, exists_const, pure_eq_ok, hinsert, exists_eq_left']
  -- The checks before the lines are those of `resolvePendingOrder`.
  constructor
  · rintro ⟨u, hbuyer, v, hlines, resolved, hres, x, hunique, htotal, y, hfits, rows, hrows, rfl⟩
    exact ⟨resolved, ⟨u, hbuyer, v, hlines, resolved, hres, x, hunique, htotal, y, hfits, rfl⟩, rows,
      hrows, rfl⟩
  · rintro ⟨resolved, ⟨u, hbuyer, v, hlines, resolved', hres, x, hunique, htotal, y, hfits, rfl⟩,
      rows, hrows, rfl⟩
    exact ⟨u, hbuyer, v, hlines, resolved', hres, x, hunique, htotal, y, hfits, rows, hrows, rfl⟩

/-- An order line that stands for one line of the input: the same offer and quantity, its product,
    and its current EUR price. -/
structure RetailRow (db : Db) (orderPk : ℕ) (input : RetailOrderLineInput) (x : NewOrderLine) :
    Prop where
  order : x.orderId = orderPk
  quantity : (x.quantityInUnits : ℤ) = input.quantity
  selection : x.retailOfferSelection = some input.commercialPriceId
  offer : x.commercialOfferId = input.commercialPriceId
  price : ∃ o ∈ db.commercialPrices, o.pk = input.commercialPriceId ∧ o.productId = x.productId
    ∧ ∃ amount, o.findAmount .eur = some amount ∧ x.unitPriceSnapshot = some amount.price

/-- A resolved line has the quantity, the offer and the price in EUR of that offer. -/
theorem resolveRetailLine_eq_ok {rt : Runtime} {db : Db} {line : RetailOrderLineInput}
    {r : ResolvedRetailOrderLine} (h : resolveRetailLine rt db .eur line = .ok r) :
    r.quantity = line.quantity ∧ r.commercialPrice ∈ db.commercialPrices
      ∧ r.commercialPrice.pk = line.commercialPriceId ∧ r.commercialPrice.productId = r.product.pk
      ∧ ∃ amount, r.commercialPrice.findAmount .eur = some amount ∧ r.unitPrice = amount.price := by
  unfold resolveRetailLine at h
  simp only [bind_eq_ok, require_eq_ok, exists_const, pure_eq_ok] at h
  obtain ⟨⟨price, product, amount⟩, hprice, -, rfl⟩ := h
  obtain ⟨hmem, hpk, hproduct, -, -, -, hamount⟩ := getRetailPrice_eq_ok hprice
  have hproduct : product.pk = price.productId := by
    have hget : db.products.get? price.productId = some product := orRaise_eq_ok.mp hproduct
    exact (Table.get?_eq_some.mp hget).2
  exact ⟨rfl, hmem, hpk, hproduct.symm, amount, hamount, rfl⟩

/-- The row made of a resolved line stands for the line it was resolved from. -/
theorem retailRow_of {rt : Runtime} {db : Db} {order : Order} {line : RetailOrderLineInput}
    {r : ResolvedRetailOrderLine} {x : NewOrderLine} (hres : resolveRetailLine rt db .eur line = .ok r)
    (hrow : newRetailOrderLine order r = .ok x) : RetailRow db order.pk line x := by
  obtain ⟨hquantity, hmem, hpk, hproduct, amount, hamount, hprice⟩ := resolveRetailLine_eq_ok hres
  unfold newRetailOrderLine at hrow
  simp only [bind_eq_ok, pure_eq_ok] at hrow
  obtain ⟨y, hy, rfl⟩ := hrow
  obtain ⟨hof, hstorable⟩ := newOrderLine_eq_ok hy
  have hunits : (y.quantityInUnits : ℤ) = r.quantity := by
    rw [hof.quantity]
    exact Int.toNat_of_nonneg (le_of_lt hstorable.quantity.1)
  exact ⟨hof.order, hunits.trans hquantity, congrArg some hpk, hof.offer.trans hpk,
    ⟨_, hmem, hpk, hproduct.trans hof.product.symm, amount, hamount,
      hof.price.trans (congrArg some hprice)⟩⟩

/-- What a checkout that goes through has written, and what it has checked. -/
structure PendingOrder (db : Db) (lines : List RetailOrderLineInput) (rows : List NewOrderLine)
    (resolved : List ResolvedRetailOrderLine) (order : Order) : Prop where
  stand : List.Forall₂ (RetailRow db order.pk) lines rows
  made : List.Forall₂ (fun r x => newRetailOrderLine order r = .ok x) resolved rows
  total : calculateOrderTotal resolved ≤ (maxRetailOrderTotal : ℤ)
  distinct : (lines.map RetailOrderLineInput.commercialPriceId).Nodup

/-- A pending order's rows stand for its lines, one by one. -/
theorem pendingOrder_of {rt : Runtime} {db : Db} {buyer : AnonymousBuyerInput}
    {lines : List RetailOrderLineInput} {resolved : List ResolvedRetailOrderLine} {order : Order}
    {rows : List NewOrderLine} (hres : resolvePendingOrder rt db buyer lines = .ok resolved)
    (hrows : resolved.mapM (newRetailOrderLine order) = .ok rows) :
    PendingOrder db lines rows resolved order := by
  unfold resolvePendingOrder validateUniqueCommercialPrices at hres
  simp only [bind_eq_ok, require_eq_ok, exists_const, pure_eq_ok] at hres
  obtain ⟨-, -, -, -, resolved', hres, hunique, htotal, -, -, rfl⟩ := hres
  have hresolved := forall₂_of_mapM hres
  have hmade := forall₂_of_mapM hrows
  have hids : resolved'.map (fun r => r.commercialPrice.pk)
      = lines.map RetailOrderLineInput.commercialPriceId :=
    map_eq_of_forall₂ hresolved (fun _ _ h => (resolveRetailLine_eq_ok h).2.2.1)
  refine ⟨?_, hmade, htotal, hids ▸ hunique⟩
  clear hres hrows hunique htotal hids
  -- By induction on the lines, along with their resolved lines and rows.
  induction hresolved generalizing rows with
  | nil =>
    cases hmade
    exact .nil
  | cons hline _ ih =>
    cases hmade with
    | cons hrow hmade => exact .cons (retailRow_of hline hrow) (ih hmade)

/-- The database after a cart was checked out. -/
def RetailDb.checkedOut (db : RetailDb) (cartPk : ℕ) (order : NewRow Order)
    (rows : List NewOrderLine) (expiresAt : Time) : RetailDb :=
  { db with toDb := db.toDb.withPendingOrder order rows expiresAt : RetailDb }.deleteCart cartPk

/-- A checkout goes through when the cart is there and not empty, and its lines resolve. -/
theorem createRetailCheckout_eq_ok {rt : Runtime} {db db' : RetailDb} {cartPk : ℕ}
    {buyer : AnonymousBuyerInput} :
    createRetailCheckoutFromCart rt db cartPk buyer = .ok db' ↔
      (∃ c ∈ db.carts, c.pk = cartPk) ∧ db.linesOf cartPk ≠ [] ∧
        ∃ resolved, resolvePendingOrder rt db.toDb buyer
          ((db.linesOf cartPk).map RetailCartLine.input) = .ok resolved
        ∧ ∃ rows, resolved.mapM
            (newRetailOrderLine ((retailDraft rt.now rt).make db.orders.next)) = .ok rows
          ∧ db.checkedOut cartPk (retailDraft rt.now rt) rows (rt.now + retailCheckoutWindow)
            = db' := by
  unfold createRetailCheckoutFromCart
  simp only [bind_eq_ok, lockRetailCart_eq_ok, require_eq_ok, exists_const,
    createPendingRetailOrder_eq_ok, pure_eq_ok]
  -- The cart must be on file and hold a line.
  constructor
  · rintro ⟨c, ⟨hc, rfl⟩, hne, _, ⟨resolved, hres, rows, hrows, rfl⟩, rfl⟩
    exact ⟨⟨c, hc, rfl⟩, hne, resolved, hres, rows, hrows, rfl⟩
  · rintro ⟨⟨c, hc, rfl⟩, hne, resolved, hres, rows, hrows, rfl⟩
    exact ⟨c, ⟨hc, rfl⟩, hne, _, ⟨resolved, hres, rows, hrows, rfl⟩, rfl⟩

/-- An order line that stands for a line of the cart. -/
structure SoldLine (db : Db) (orderPk : ℕ) (cartLine : RetailCartLine) (l : OrderLine) : Prop where
  order : l.orderId = orderPk
  quantity : l.quantityInUnits = cartLine.quantity
  selection : l.retailOfferSelection = some cartLine.commercialPriceId
  offer : l.commercialOfferId = cartLine.commercialPriceId
  price : ∃ o ∈ db.commercialPrices, o.pk = cartLine.commercialPriceId ∧ o.productId = l.productId
    ∧ ∃ amount, o.findAmount .eur = some amount ∧ l.unitPriceSnapshot = some amount.price

/-- The lines of the new order are those that were inserted, and stand for those of the cart, one
    by one. -/
theorem orderLines_checkedOut {db : RetailDb} {cartPk : ℕ} {resolved : List ResolvedRetailOrderLine}
    {row : NewRow Order} {rows : List NewOrderLine} {expiresAt : Time}
    (hnew : db.orderLines db.orders.next = [])
    (h : PendingOrder db.toDb ((db.linesOf cartPk).map RetailCartLine.input) rows resolved
      (row.make db.orders.next)) :
    (db.checkedOut cartPk row rows expiresAt).orderLines db.orders.next
        = Table.made db.lines.next (rows.map NewOrderLine.row)
      ∧ List.Forall₂ (SoldLine db.toDb db.orders.next) (db.linesOf cartPk)
        ((db.checkedOut cartPk row rows expiresAt).orderLines db.orders.next) := by
  have hpk : (row.make db.orders.next).pk = db.orders.next := row.pk_make _
  have hstand := h.stand
  rw [hpk] at hstand
  -- The new order had no lines before, so its lines are the inserted rows.
  have hmade : (db.checkedOut cartPk row rows expiresAt).orderLines db.orders.next
      = Table.made db.lines.next (rows.map NewOrderLine.row) := by
    have hold : db.lines.select (fun l => l.orderId = db.orders.next) = [] := hnew
    show (db.lines.insertAll _).select _ = _
    refine (Table.select_insertAll_of (fun l hl => ?_)).trans (by rw [hold, List.nil_append])
    obtain ⟨x, hx, m, rfl⟩ := Table.mem_made_map hl
    obtain ⟨input, -, hrow⟩ := forall₂_right hstand x hx
    exact decide_eq_true hrow.order
  refine ⟨hmade, ?_⟩
  rw [hmade]
  rw [List.forall₂_map_left_iff] at hstand
  have hrows : List.Forall₂ (fun cartLine d => ∃ x : NewOrderLine, x.row = d
      ∧ RetailRow db.toDb db.orders.next (RetailCartLine.input cartLine) x) (db.linesOf cartPk)
      (rows.map NewOrderLine.row) :=
    List.forall₂_map_right_iff.mpr (hstand.imp (fun _ x hx => ⟨x, rfl, hx⟩))
  refine Table.forall₂_made (fun cartLine d n hd => ?_) hrows _
  obtain ⟨x, rfl, hx⟩ := hd
  exact ⟨hx.order, Int.ofNat.inj hx.quantity, hx.selection, hx.offer, hx.price⟩

/-! ### Adding to a cart -/

/-- The units of an offer in a cart. -/
def cartUnits (db : RetailDb) (cartPk k : ℕ) : ℕ :=
  db.cartLines.total (fun l => if l.cartId = cartPk ∧ l.commercialPriceId = k then l.quantity else 0)

/-- The units of an offer, summed over the lines of the cart. -/
theorem cartUnits_eq (db : RetailDb) (cartPk k : ℕ) : cartUnits db cartPk k
    = ((db.linesOf cartPk).map (fun l => if l.commercialPriceId = k then l.quantity else 0)).sum := by
  unfold cartUnits RetailDb.linesOf
  rw [Table.sum_select]
  refine Table.total_congr (fun l _ => ?_)
  by_cases hcart : l.cartId = cartPk <;> simp [hcart]

/-- A line is found in the cart for the offer. -/
theorem findCartLine_some {db : RetailDb} {cartPk k : ℕ} {l : RetailCartLine}
    (h : findCartLine db cartPk k = some l) :
    l ∈ db.cartLines ∧ l.cartId = cartPk ∧ l.commercialPriceId = k := by
  obtain ⟨hl, hcart⟩ := RetailDb.mem_linesOf.mp (List.mem_of_find?_eq_some h)
  exact ⟨hl, hcart, by simpa using List.find?_some h⟩

/-- **Adding to a cart.** The units of the offer are added, and nothing else changes. -/
theorem addRetailCartLine_eq_ok {db db' : RetailDb} {cartPk k : ℕ} {quantity : ℤ}
    (h : addRetailCartLine db cartPk k quantity = .ok db') :
    (∃ c ∈ db.carts, c.pk = cartPk) ∧ db'.toDb = db.toDb ∧ db'.carts = db.carts ∧ 0 < quantity
      ∧ ∀ j, (cartUnits db' cartPk j : ℤ) = cartUnits db cartPk j + if k = j then quantity else 0 := by
  unfold addRetailCartLine at h
  simp only [bind_eq_ok, lockRetailCart_eq_ok] at h
  obtain ⟨u, hquantity, cart, ⟨hcart, rfl⟩, ⟨price, product, amount⟩, hprice, h⟩ := h
  obtain ⟨-, rfl, -⟩ := getRetailPrice_eq_ok hprice
  have hpos : 0 < quantity := by
    have := (validateCartQuantity_eq_ok.mp hquantity).1
    omega
  -- An offer already in the cart has its line resized; a new one gets a line.
  cases hfind : findCartLine db cart.pk price.pk with
  | some line =>
    simp only [hfind, bind_eq_ok, pure_eq_ok] at h
    obtain ⟨-, -, line', hline', rfl⟩ := h
    obtain ⟨hmem, hlcart, hlprice⟩ := findCartLine_some hfind
    obtain ⟨hpk, hcart', hprice', hquantity'⟩ := RetailCartLine.resize_eq_ok hline'
    refine ⟨⟨cart, hcart, rfl⟩, rfl, rfl, hpos, fun j => ?_⟩
    have htotal := Table.total_put hmem hpk
      (fun l => if l.cartId = cart.pk ∧ l.commercialPriceId = j then l.quantity else 0)
    simp only [hcart', hprice', hlcart, hlprice, true_and] at htotal
    show ((db.cartLines.put line').total _ : ℤ) = (db.cartLines.total _ : ℤ) + _
    by_cases hj : price.pk = j
    · rw [if_pos hj, if_pos hj] at htotal
      rw [if_pos hj]
      omega
    · rw [if_neg hj, if_neg hj] at htotal
      rw [if_neg hj]
      omega
  | none =>
    simp only [hfind, bind_eq_ok, pure_eq_ok] at h
    obtain ⟨row, hrow, rfl⟩ := h
    obtain ⟨hrcart, hrprice, hrquantity⟩ := newCartLine_eq_ok hrow db.cartLines.next
    refine ⟨⟨cart, hcart, rfl⟩, rfl, rfl, hpos, fun j => ?_⟩
    show ((db.cartLines.insert row).total _ : ℤ) = (db.cartLines.total _ : ℤ) + _
    rw [Table.total_insert]
    simp only [hrcart, hrprice, true_and]
    by_cases hj : price.pk = j
    · rw [if_pos hj, if_pos hj]
      push_cast
      rw [hrquantity]
    · rw [if_neg hj, if_neg hj]
      simp

end SwedeSweets
