import SwedeSweets.Concurrency.Carts

namespace SwedeSweets

open Relational Fallible Transition Interleaving ReadCommitted

/-!
# The checkout of one cart

The checkout runs statement by statement; it may be aborted between any two of them, and the clock
may move on.  `CartSold` says what a checkout that went through has left behind.

`cart_checkout_exact` — a checkout sells the cart as it was, or changes nothing.
-/

/-- What a retail order comes to, price times quantity, line by line. -/
def lineTotals (ls : List OrderLine) : ℕ :=
  (ls.map (fun l => l.unitPriceSnapshot.getD 0 * l.quantityInUnits)).sum

/-- When every line has a price, the total of the order is the sum over its lines. -/
theorem orderTotal_eq_sum {ls : List OrderLine} (h : ∀ l ∈ ls, l.unitPriceSnapshot ≠ none) :
    orderTotal ls = some (lineTotals ls) := by
  induction ls with
  | nil => rfl
  | cons l ls ih =>
    have hrest := ih (fun x hx => h x (List.mem_cons_of_mem _ hx))
    cases hprice : l.unitPriceSnapshot with
    | none => exact absurd hprice (h l (List.mem_cons_self ..))
    | some price =>
      simp [orderTotal, OrderLine.lineTotal, lineTotals, hprice, hrest]

/-- The cart has become the order `o`, and nothing else has changed. -/
structure CartSold (cartPk : ℕ) (start db : RetailDb) (o : Order) : Prop where
  created : ∀ x, x ∈ db.orders ↔ x ∈ start.orders ∨ x = o
  new : ∀ x ∈ start.orders, x.pk ≠ o.pk
  draft : o.status = .draft ∧ o.channel = .retail ∧ o.currency = .eur
  -- the lines of the order and those of the cart correspond one by one
  lines : List.Forall₂ (SoldLine start.toDb o.pk) (start.linesOf cartPk) (db.orderLines o.pk)
  distinct : ((start.linesOf cartPk).map RetailCartLine.commercialPriceId).Nodup
  nonempty : start.linesOf cartPk ≠ []
  otherLines : ∀ l : OrderLine, l.orderId ≠ o.pk → (l ∈ db.lines ↔ l ∈ start.lines)
  total : orderTotal (db.orderLines o.pk) = some (lineTotals (db.orderLines o.pk))
  bounded : lineTotals (db.orderLines o.pk) ≤ maxRetailOrderTotal
  session : ∃ s : RetailCheckoutSession, s.orderId = o.pk
    ∧ ∀ x, x ∈ db.retailCheckouts ↔ x ∈ start.retailCheckouts ∨ x = s
  gone : (∀ c ∈ db.carts, c.pk ≠ cartPk) ∧ db.linesOf cartPk = []
  otherCarts : (∀ c : RetailCart, c.pk ≠ cartPk → (c ∈ db.carts ↔ c ∈ start.carts))
    ∧ ∀ l : RetailCartLine, l.cartId ≠ cartPk → (l ∈ db.cartLines ↔ l ∈ start.cartLines)
  frame : { db.toDb with
      orders := start.orders
      lines := start.lines
      retailCheckouts := start.retailCheckouts } = start.toDb

section

variable {cartPk : ℕ} {db db' : RetailDb}

/-- **One checkout.** What the transaction leaves behind, whatever the clock says. -/
theorem cartSold_of_outcome (hlines : ∀ l ∈ db.lines, ∃ o ∈ db.orders, o.pk = l.orderId)
    {ω : Type} {rt : Runtime} {buyer : AnonymousBuyerInput} {times : ℕ → Prop} {note note' : List ω}
    (h : (createRetailCheckoutTx rt cartPk buyer (.commit note)).Outcome times db db' note') :
    note = note' ∧ ∃ o, CartSold cartPk db db' o := by
  rw [outcome_createCheckout] at h
  obtain ⟨-, hne, resolved, hres, now, -, rows, hrows, later, -, rfl, hnote⟩ := h
  have hpending := pendingOrder_of hres hrows
  set sold := db.checkedOut cartPk (retailDraft now rt) rows (later + retailCheckoutWindow)
  have hboth : sold.orderLines db.orders.next
        = Table.made db.lines.next (rows.map NewOrderLine.row)
      ∧ List.Forall₂ (SoldLine db.toDb db.orders.next) (db.linesOf cartPk)
        (sold.orderLines db.orders.next) :=
    orderLines_checkedOut (Db.orderLines_of_fresh hlines Inv.fresh_next) hpending
  obtain ⟨hmade, hsold⟩ := hboth
  refine ⟨hnote, (retailDraft now rt).make db.orders.next, ?_⟩
  have hpriced : ∀ l ∈ sold.orderLines db.orders.next, l.unitPriceSnapshot ≠ none := by
    intro l hl
    obtain ⟨cartLine, -, hline⟩ := forall₂_right hsold l hl
    obtain ⟨_, -, -, -, amount, -, hprice⟩ := hline.price
    simp [hprice]
  have htotal := orderTotal_eq_sum hpriced
  exact {
    created := fun x => by
      show x ∈ db.orders.insert (retailDraft now rt) ↔ _
      rw [Table.mem_insert]
    new := fun x hx => Nat.ne_of_lt (db.orders.bounded x hx)
    draft := ⟨rfl, rfl, rfl⟩
    lines := hsold
    distinct := by simpa [List.map_map, Function.comp_def, RetailCartLine.input]
      using hpending.distinct
    nonempty := hne
    otherLines := fun l hl => by
      show l ∈ db.lines.insertAll _ ↔ _
      rw [Table.mem_insertAll]
      refine ⟨fun hmem => hmem.resolve_right (fun hmem => ?_), Or.inl⟩
      -- the lines that were inserted are lines of the order
      rw [← hmade] at hmem
      exact hl (Db.mem_orderLines.mp hmem).2
    total := htotal
    bounded := by
      obtain ⟨total, hsum, hcalculated, -⟩ := Inv.orderTotal_new hpending.made db.lines.next
      rw [← hmade, htotal, Option.some.injEq] at hsum
      have hmax := hpending.total
      show lineTotals (sold.orderLines db.orders.next) ≤ _
      rw [hsum]
      omega
    session := ⟨⟨db.retailCheckouts.next, db.orders.next, later + retailCheckoutWindow⟩, rfl,
      fun x => Table.mem_insert⟩
    gone := by
      refine ⟨fun c hc => ?_, List.eq_nil_iff_forall_not_mem.mpr (fun l hl => ?_)⟩
      · simpa using (Table.mem_delete.mp hc).2
      · obtain ⟨hl, hcart⟩ := RetailDb.mem_linesOf.mp hl
        have hother := (Table.mem_delete.mp hl).2
        simp [hcart] at hother
    otherCarts := by
      refine ⟨fun c hc => Table.mem_delete.trans ?_, fun l hl => Table.mem_delete.trans ?_⟩
      · simp [hc]
      · simp [hl]
    frame := rfl }

end

/-- The one worker, who checks the cart out. -/
def soleCheckout (rt : Runtime) (buyer : AnonymousBuyerInput) (_ : Unit) : Runtime × CartCall :=
  (rt, .checkout buyer)

/-- What one worker has done so far: nothing, or the checkout. -/
def CheckoutDone (cartPk : ℕ) (start db : RetailDb) (log : List Unit) : Prop :=
  (log = [] ∧ db = start) ∨ (log = [()] ∧ ∃ o, CartSold cartPk start db o)

/-- **Cart checkout is exact and atomic.** However the checkout of a cart runs, aborts and the moving
    clock included: once it has gone through, the cart has become one retail draft whose lines stand
    for those of the cart; until then, and when it fails, the database is as it was. -/
theorem cart_checkout_exact {cartPk : ℕ} {rt : Runtime} {buyer : AnonymousBuyerInput} {now : Time}
    {db : RetailDb} {ms : List (Move Unit)} {t : CartPool Unit}
    (hlines : ∀ l ∈ db.lines, ∃ o ∈ db.orders, o.pk = l.orderId)
    (h : Run CartStep (cartStart cartPk (soleCheckout rt buyer) now db) ms t) :
    (t.locals () = .committed → ∃ o, CartSold cartPk db t.shared.db o)
      ∧ (t.locals () ≠ .committed → t.shared.db = db) := by
  have hdone : CheckoutDone cartPk db t.shared.db t.shared.log := by
    refine turns_sound h (Or.inl ⟨rfl, rfl⟩) (fun _ => rfl)
      (fun w => safe_of_lock (fun _ => rfl) (fun d log d' note hd hout => ?_))
    rcases hd with ⟨rfl, rfl⟩ | ⟨-, o, hsold⟩
    · obtain ⟨rfl, hsold⟩ := cartSold_of_outcome hlines hout
      exact Or.inr ⟨rfl, hsold⟩
    · -- the cart is gone, and cannot be checked out again
      have hout : (createRetailCheckoutTx rt cartPk buyer (.commit [w])).Outcome
          (fun _ => True) d d' note := hout
      rw [outcome_createCheckout] at hout
      obtain ⟨⟨c, hc, hpk⟩, -⟩ := hout
      exact absurd hpk (hsold.gone.1 c hc)
  have hsigned := log_of_signed h rfl (fun _ => rfl) (fun w => signs_cartTx)
  refine ⟨fun hcommitted => ?_, fun hrunning => ?_⟩
  -- The log tells whether the worker committed.
  · rcases hdone with ⟨hlog, -⟩ | ⟨-, hsold⟩
    · have hmem := (hsigned.2 ()).mpr hcommitted
      rw [hlog] at hmem
      cases hmem
    · exact hsold
  · rcases hdone with ⟨-, hdb⟩ | ⟨hlog, -⟩
    · exact hdb
    · refine absurd ((hsigned.2 ()).mp ?_) hrunning
      rw [hlog]
      exact List.mem_singleton_self ()

namespace Shop

def candy : Product := ⟨2, some 2, "Brand", "Candy", 100, "SKU-2", true⟩

/-- Its retail offer at 4.50. -/
def candyOffer : CommercialPrice :=
  ⟨3, 2, none, .retail, "", true, [⟨.eur, 450, none, by decide⟩]⟩

/-- Two products with a batch each, both sold in the shop, and an earlier retail order. -/
def twoProducts : List (Runtime × Op) :=
  [ (runtime 0, .catalog ⟨[product, candy], 3, by decide, by decide⟩
      ⟨[businessOffer, retailOffer, candyOffer], 4, by decide, by decide⟩ areas),
    (runtime 0, .createBatch 1 10 30 "Shelf" (some "B1") none false none),
    (runtime 0, .createBatch 2 10 30 "Shelf" (some "B2") none false none),
    (runtime 1, .createPendingRetailOrder buyer [⟨2, 2⟩]) ]

/-- A cart with a line for each of the two products, and another cart. -/
def fullCartDb : RetailDb where
  toDb := (State.init.after twoProducts).db
  carts := ⟨[⟨1⟩, ⟨2⟩], 3, by decide, by decide⟩
  cartLines := ⟨[⟨1, 1, 2, 1, Nat.one_pos⟩, ⟨2, 2, 2, 2, Nat.two_pos⟩, ⟨3, 1, 3, 2, Nat.two_pos⟩], 4,
    by decide, by decide⟩

end Shop

/-- A cart with two lines is checked out, beside an earlier order and another cart. -/
theorem cart_checkout_exact_shop :
    ∃ t ms, Run CartStep (cartStart 1 (soleCheckout (Shop.runtime 2) Shop.buyer) 2
        Shop.fullCartDb) ms t
      ∧ t.locals () = .committed ∧ ∃ o, CartSold 1 Shop.fullCartDb t.shared.db o := by
  have hearlier : Shop.fullCartDb.lines.rows.map OrderLine.orderId = [1]
      ∧ Shop.fullCartDb.orders.rows.map Order.pk = [1] := by decide +kernel
  -- The sole worker runs to its commit.
  have hplay : (play (fun _ _ => true) (List.replicate 14 (.work ()))
      (cartStart 1 (soleCheckout (Shop.runtime 2) Shop.buyer) 2 Shop.fullCartDb)).any
        (fun t => (t.locals ()).isCommitted) = true := by
    decide +kernel
  obtain ⟨t, ms, hrun, hend⟩ := run_of_play (fun _ _ => True) (fun _ _ _ => trivial) hplay
  have hrun : Run CartStep _ ms t := hrun.mono (fun _ _ _ _ hst => hst.2)
  have hlines : ∀ l ∈ Shop.fullCartDb.lines, ∃ o ∈ Shop.fullCartDb.orders, o.pk = l.orderId := by
    intro l hl
    have hmem : l.orderId ∈ Shop.fullCartDb.lines.rows.map OrderLine.orderId :=
      List.mem_map_of_mem hl
    rw [hearlier.1, ← hearlier.2] at hmem
    exact List.mem_map.mp hmem
  have hcommitted := Progress.isCommitted_iff.mp hend
  exact ⟨t, ms, hrun, hcommitted, (cart_checkout_exact hlines hrun).1 hcommitted⟩

end SwedeSweets
