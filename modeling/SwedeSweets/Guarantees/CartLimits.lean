import SwedeSweets.Guarantees.CartCheckout

namespace SwedeSweets

open Relational Fallible Transition

/-!
# What a cart may hold

The services that change a cart check one line at a time; the checkout checks the order as a
whole.  `CartLinesOk` is what every sequence of cart services keeps: no line above the limit, and
no offer twice in a cart.

* `cart_passes_line_checks` — the lines of a cart always pass the checks on a line, and pass
  the checks on the order as soon as there are at most twenty of them;
* `cart_too_long` — a cart with one line more than an order may have.
-/

/-! ### Runs -/

/-- One service that changes the lines of a cart. -/
inductive CartMutation where
  | add (commercialPriceId : ℕ) (quantity : ℤ)
  | update (linePk : ℕ) (quantity : ℤ)
  | remove (linePk : ℕ)
  | clear

def CartMutation.run (db : RetailDb) (cartPk : ℕ) : CartMutation → Result RetailDb
  | .add commercialPriceId quantity => addRetailCartLine db cartPk commercialPriceId quantity
  | .update linePk quantity => updateRetailCartLineQuantity db cartPk linePk quantity
  | .remove linePk => removeRetailCartLine db cartPk linePk
  | .clear => clearRetailCart db cartPk

inductive CartMove where
  | mutate (cartPk : ℕ) (mutation : CartMutation)
  | elsewhere

/-- A service that goes through, on any cart; or anything else, which may take cart lines away
    (a cart is checked out, an offer is deleted) but adds none. -/
inductive MutationStep : RetailDb → CartMove → RetailDb → Prop where
  | mutate {db db' : RetailDb} {cartPk : ℕ} {mutation : CartMutation}
      (h : mutation.run db cartPk = .ok db') : MutationStep db (.mutate cartPk mutation) db'
  | elsewhere {db db' : RetailDb} (h : ∀ l ∈ db'.cartLines, l ∈ db.cartLines) :
      MutationStep db .elsewhere db'

/-! ### The invariant -/

/-- No line is above the limit of a line, and no cart names an offer twice. -/
structure CartLinesOk (db : RetailDb) : Prop where
  limit : ∀ l ∈ db.cartLines, (l.quantity : ℤ) ≤ maxRetailLineQuantity
  unique : ∀ l ∈ db.cartLines, ∀ l' ∈ db.cartLines, l.cartId = l'.cartId →
    l.commercialPriceId = l'.commercialPriceId → l = l'

/-- No line of the cart is for the offer. -/
theorem findCartLine_none {db : RetailDb} {cartPk k : ℕ} (h : findCartLine db cartPk k = none) :
    ∀ l ∈ db.cartLines, l.cartId = cartPk → l.commercialPriceId ≠ k := by
  intro l hl hcart
  have hno := List.find?_eq_none.mp h l (RetailDb.mem_linesOf.mpr ⟨hl, hcart⟩)
  simpa using hno

/-- The locked line is on file. -/
theorem getLockedCartLine_eq_ok {db : RetailDb} {cart : RetailCart} {linePk : ℕ}
    {l : RetailCartLine} (h : getLockedCartLine db cart linePk = .ok l) : l ∈ db.cartLines := by
  unfold getLockedCartLine at h
  exact (RetailDb.mem_linesOf.mp (List.mem_of_find?_eq_some (orRaise_eq_ok.mp h))).1

namespace CartLinesOk

variable {db db' : RetailDb}

/-- Lines that go leave the others as they are. -/
theorem shrink (h : CartLinesOk db) (hlines : ∀ l ∈ db'.cartLines, l ∈ db.cartLines) :
    CartLinesOk db' where
  limit l hl := h.limit l (hlines l hl)
  unique l hl l' hl' := h.unique l (hlines l hl) l' (hlines l' hl')

/-- Another quantity for a line, within the limit. -/
theorem resize (h : CartLinesOk db) {line line' : RetailCartLine} {quantity : ℤ}
    (hline : line ∈ db.cartLines) (hmax : quantity ≤ maxRetailLineQuantity)
    (hok : line.resize quantity = .ok line') :
    CartLinesOk { db with cartLines := db.cartLines.put line' } := by
  obtain ⟨hpk, hcart, hprice, hquantity⟩ := RetailCartLine.resize_eq_ok hok
  -- every line of the new table stands for one of the old, under its key, cart and offer
  have hold : ∀ l ∈ db.cartLines.put line', ∃ x ∈ db.cartLines, x.pk = l.pk
      ∧ x.cartId = l.cartId ∧ x.commercialPriceId = l.commercialPriceId := by
    intro l hl
    rcases Table.of_mem_put hl with rfl | ⟨hl, -⟩
    · exact ⟨line, hline, hpk.symm, hcart.symm, hprice.symm⟩
    · exact ⟨l, hl, rfl, rfl, rfl⟩
  refine ⟨fun l hl => ?_, fun l hl l' hl' hc hp => ?_⟩
  · rcases Table.of_mem_put hl with rfl | ⟨hl, -⟩
    · exact hquantity.trans_le hmax
    · exact h.limit l hl
  · obtain ⟨x, hx, hxpk, hxc, hxp⟩ := hold l hl
    obtain ⟨y, hy, hypk, hyc, hyp⟩ := hold l' hl'
    have heq := h.unique x hx y hy (hxc.trans (hc.trans hyc.symm)) (hxp.trans (hp.trans hyp.symm))
    exact Table.eq_of_pk_eq hl hl' (hxpk.symm.trans ((congrArg _ heq).trans hypk))

/-- A new line, for an offer the cart does not have. -/
theorem insert (h : CartLinesOk db) {cartPk k : ℕ} {quantity : ℤ} {row : NewRow RetailCartLine}
    (hmax : quantity ≤ maxRetailLineQuantity) (hrow : newCartLine cartPk k quantity = .ok row)
    (hnew : ∀ l ∈ db.cartLines, l.cartId = cartPk → l.commercialPriceId ≠ k) :
    CartLinesOk { db with cartLines := db.cartLines.insert row } := by
  obtain ⟨hcart, hprice, hquantity⟩ := newCartLine_eq_ok hrow db.cartLines.next
  refine ⟨fun l hl => ?_, fun l hl l' hl' hc hp => ?_⟩
  · rcases Table.mem_insert.mp hl with hl | rfl
    · exact h.limit l hl
    · exact hquantity.trans_le hmax
  · rcases Table.mem_insert.mp hl with hl | rfl <;> rcases Table.mem_insert.mp hl' with hl' | rfl
    · exact h.unique l hl l' hl' hc hp
    · exact absurd (hp.trans hprice) (hnew l hl (hc.trans hcart))
    · exact absurd (hp.symm.trans hprice) (hnew l' hl' (hc.symm.trans hcart))
    · rfl

/-- Adding units keeps the cart's limits. -/
theorem add (h : CartLinesOk db) {cartPk k : ℕ} {quantity : ℤ}
    (hok : addRetailCartLine db cartPk k quantity = .ok db') : CartLinesOk db' := by
  unfold addRetailCartLine at hok
  simp only [bind_eq_ok, lockRetailCart_eq_ok] at hok
  obtain ⟨_, hquantity, cart, ⟨-, rfl⟩, ⟨price, product, amount⟩, -, hok⟩ := hok
  cases hfind : findCartLine db cart.pk price.pk with
  | some line =>
    simp only [hfind, bind_eq_ok, pure_eq_ok] at hok
    obtain ⟨_, htotal, line', hline', rfl⟩ := hok
    exact h.resize (findCartLine_some hfind).1 (validateCartQuantity_eq_ok.mp htotal).2 hline'
  | none =>
    simp only [hfind, bind_eq_ok, pure_eq_ok] at hok
    obtain ⟨row, hrow, rfl⟩ := hok
    exact h.insert (validateCartQuantity_eq_ok.mp hquantity).2 hrow (findCartLine_none hfind)

/-- **One service.** -/
theorem mutate (h : CartLinesOk db) {cartPk : ℕ} {mutation : CartMutation}
    (hok : mutation.run db cartPk = .ok db') : CartLinesOk db' := by
  -- Additions and updates are validated; removals only shrink the cart.
  cases mutation with
  | add commercialPriceId quantity => exact h.add hok
  | update linePk quantity =>
    have hok : updateRetailCartLineQuantity db cartPk linePk quantity = .ok db' := hok
    unfold updateRetailCartLineQuantity at hok
    simp only [bind_eq_ok, pure_eq_ok] at hok
    obtain ⟨_, hquantity, cart, -, line, hline, line', hline', rfl⟩ := hok
    exact h.resize (getLockedCartLine_eq_ok hline) (validateCartQuantity_eq_ok.mp hquantity).2 hline'
  | remove linePk =>
    have hok : removeRetailCartLine db cartPk linePk = .ok db' := hok
    unfold removeRetailCartLine at hok
    simp only [bind_eq_ok, pure_eq_ok] at hok
    obtain ⟨cart, -, line, -, rfl⟩ := hok
    exact h.shrink (fun l hl => (Table.mem_delete.mp hl).1)
  | clear =>
    have hok : clearRetailCart db cartPk = .ok db' := hok
    unfold clearRetailCart at hok
    simp only [bind_eq_ok, pure_eq_ok] at hok
    obtain ⟨cart, -, rfl⟩ := hok
    exact h.shrink (fun l hl => (Table.mem_delete.mp hl).1)

/-- **Every run.** -/
theorem ofRun {start : RetailDb} {ms : List CartMove} (hstart : ∀ l, l ∉ start.cartLines)
    (h : Run MutationStep start ms db) : CartLinesOk db := by
  refine h.invariant (fun s m t hs hstep => ?_)
    ⟨fun l hl => absurd hl (hstart l), fun l hl => absurd hl (hstart l)⟩
  cases hstep with
  | mutate hok => exact hs.mutate hok
  | elsewhere hless => exact hs.shrink hless

/-! ### What the checkout checks -/

/-- The lines a checkout makes of a cart. -/
theorem quantities (h : CartLinesOk db) (cartPk : ℕ) :
    ∀ line ∈ (db.linesOf cartPk).map RetailCartLine.input,
      minRetailLineQuantity ≤ line.quantity ∧ line.quantity ≤ maxRetailLineQuantity := by
  refine List.forall_mem_map.mpr (fun l hl => ⟨?_, h.limit l (RetailDb.mem_linesOf.mp hl).1⟩)
  have hpos := l.quantity_pos
  show (1 : ℤ) ≤ (l.quantity : ℤ)
  omega

/-- The inputs of a cart name distinct offers. -/
theorem distinct (h : CartLinesOk db) (cartPk : ℕ) :
    (((db.linesOf cartPk).map RetailCartLine.input).map
      RetailOrderLineInput.commercialPriceId).Nodup := by
  rw [List.map_map]
  have hnd : (db.linesOf cartPk).Nodup := List.Nodup.of_map _ (db.cartLines.select_nodup_pk _)
  refine (List.nodup_map_iff_inj_on hnd).mpr (fun l hl l' hl' hprice => ?_)
  obtain ⟨hl, hcart⟩ := RetailDb.mem_linesOf.mp hl
  obtain ⟨hl', hcart'⟩ := RetailDb.mem_linesOf.mp hl'
  exact h.unique l hl l' hl' (hcart.trans hcart'.symm) hprice

end CartLinesOk

/-- Lines pass when there are some, not too many, and each within its bounds. -/
theorem validateRetailLines_eq_ok {lines : List RetailOrderLineInput} :
    validateRetailLines lines = .ok () ↔ lines ≠ [] ∧ lines.length ≤ maxRetailOrderLines ∧
      ∀ line ∈ lines,
        minRetailLineQuantity ≤ line.quantity ∧ line.quantity ≤ maxRetailLineQuantity := by
  unfold validateRetailLines
  simp

/-- The row of a resolved line, when its quantity is within the range for a line. -/
theorem newRetailOrderLine_returns (order : Order) {r : ResolvedRetailOrderLine}
    (hmin : minRetailLineQuantity ≤ r.quantity) (hmax : r.quantity ≤ maxRetailLineQuantity)
    (hprice : 0 < r.unitPrice) : ∃ x, newRetailOrderLine order r = .ok x := by
  unfold minRetailLineQuantity at hmin
  unfold maxRetailLineQuantity at hmax
  -- The line's bounds are far below the columns'.
  have hstorable : ResolvedOrderLine.Storable
      ⟨r.product, r.quantity, r.commercialPrice, some r.unitPrice⟩ := by
    refine ⟨⟨show 0 < r.quantity by omega, ?_⟩, ?_⟩
    · show r.quantity < 10 ^ 9
      omega
    · rintro c ⟨⟩
      exact hprice
  obtain ⟨y, hy⟩ := exists_newOrderLine order hstorable
  unfold newRetailOrderLine
  rw [hy]
  exact ⟨_, rfl⟩

section

variable {rt : Runtime} {db : RetailDb} {cartPk : ℕ} {buyer : AnonymousBuyerInput}

/-- The checks on the order as a whole: where it goes, whose it is, and what it comes to. -/
def OrderAdmitted (rt : Runtime) (db : Db) (buyer : AnonymousBuyerInput)
    (lines : List RetailOrderLineInput) : Prop :=
  isSupportedRetailDestination rt db buyer.country buyer.postalCode buyer.city = true
    ∧ (buyerFromAnonymousRetailInput rt buyer).FitsColumns
    ∧ ∃ resolved, lines.mapM (resolveRetailLine rt db .eur) = .ok resolved
      ∧ calculateOrderTotal resolved ≤ (maxRetailOrderTotal : ℤ)

/-- A cart whose lines are in order, not empty and not too long, is checked out exactly when the
    order is admitted. -/
theorem CartLinesOk.checkout_iff (h : CartLinesOk db) (hcart : ∃ c ∈ db.carts, c.pk = cartPk)
    (hne : db.linesOf cartPk ≠ []) (hlength : (db.linesOf cartPk).length ≤ maxRetailOrderLines) :
    (∃ db', createRetailCheckoutFromCart rt db cartPk buyer = .ok db') ↔
      OrderAdmitted rt db.toDb buyer ((db.linesOf cartPk).map RetailCartLine.input) := by
  set lines := (db.linesOf cartPk).map RetailCartLine.input with hlines
  have hvalid : validateRetailLines lines = .ok () := by
    refine validateRetailLines_eq_ok.mpr ⟨?_, ?_, h.quantities cartPk⟩
    · rw [hlines]
      simpa using hne
    · rw [hlines, List.length_map]
      exact hlength
  have hunique : ∀ resolved, lines.mapM (resolveRetailLine rt db.toDb .eur) = .ok resolved →
      validateUniqueCommercialPrices resolved = .ok () := by
    intro resolved hres
    have hids : resolved.map (fun r => r.commercialPrice.pk)
        = lines.map RetailOrderLineInput.commercialPriceId :=
      map_eq_of_forall₂ (forall₂_of_mapM hres) (fun _ _ hr => (resolveRetailLine_eq_ok hr).2.2.1)
    unfold validateUniqueCommercialPrices
    exact require_of (hids ▸ h.distinct cartPk)
  have hresolves : ∀ resolved, resolvePendingOrder rt db.toDb buyer lines = .ok resolved ↔
      isSupportedRetailDestination rt db.toDb buyer.country buyer.postalCode buyer.city = true
        ∧ (buyerFromAnonymousRetailInput rt buyer).FitsColumns
        ∧ lines.mapM (resolveRetailLine rt db.toDb .eur) = .ok resolved
        ∧ calculateOrderTotal resolved ≤ (maxRetailOrderTotal : ℤ) := by
    intro resolved
    unfold resolvePendingOrder validateBuyerDestination
    simp only [bind_eq_ok, require_eq_ok, snapshotBuyer_eq_ok, exists_const, pure_eq_ok, hvalid]
    refine and_congr_right (fun _ => ?_)
    constructor
    · rintro ⟨-, resolved', hres, _, -, htotal, hfits, rfl⟩
      exact ⟨hfits, hres, htotal⟩
    · rintro ⟨hfits, hres, htotal⟩
      exact ⟨trivial, resolved, hres, (), hunique resolved hres, htotal, hfits, rfl⟩
  constructor
  · rintro ⟨db', hok⟩
    obtain ⟨-, -, resolved, hres, -⟩ := createRetailCheckout_eq_ok.mp hok
    obtain ⟨hsupported, hfits, hres, htotal⟩ := (hresolves resolved).mp hres
    exact ⟨hsupported, hfits, resolved, hres, htotal⟩
  · rintro ⟨hsupported, hfits, resolved, hres, htotal⟩
    -- every resolved line has a positive quantity and price, so its row can be inserted
    have hreturns : ∀ r ∈ resolved, ∃ row, newRetailOrderLine
        ((retailDraft rt.now rt).make db.orders.next) r = .ok row := by
      intro r hr
      obtain ⟨line, hline, hr⟩ := exists_of_mem_mapM hres hr
      obtain ⟨hquantity, -, -, -, amount, -, hprice⟩ := resolveRetailLine_eq_ok hr
      obtain ⟨hmin, hmax⟩ := h.quantities cartPk line hline
      rw [← hquantity] at hmin hmax
      refine newRetailOrderLine_returns _ hmin hmax ?_
      rw [hprice]
      exact amount.price_pos
    obtain ⟨rows, hrows⟩ := mapM_ok hreturns
    exact ⟨_, createRetailCheckout_eq_ok.mpr ⟨hcart, hne, resolved,
      (hresolves resolved).mpr ⟨hsupported, hfits, hres, htotal⟩, rows, hrows, rfl⟩⟩

end

/-- **Cart lines pass the checks on a line.** After every sequence of cart services: the lines of
    a cart are within the range for a line and name no offer twice; they pass the validation of
    lines exactly when there is one at least and twenty at most; and the checkout of such a cart
    fails only over the destination, the columns of the buyer's data, the sellability or price of
    an offer, or the total. -/
theorem cart_passes_line_checks {start db : RetailDb} {ms : List CartMove}
    (hstart : ∀ l, l ∉ start.cartLines) (h : Run MutationStep start ms db) (cartPk : ℕ) :
    ((∀ line ∈ (db.linesOf cartPk).map RetailCartLine.input,
        minRetailLineQuantity ≤ line.quantity ∧ line.quantity ≤ maxRetailLineQuantity)
      ∧ (((db.linesOf cartPk).map RetailCartLine.input).map
          RetailOrderLineInput.commercialPriceId).Nodup)
    ∧ (validateRetailLines ((db.linesOf cartPk).map RetailCartLine.input) = .ok () ↔
        db.linesOf cartPk ≠ [] ∧ (db.linesOf cartPk).length ≤ maxRetailOrderLines)
    ∧ ∀ (rt : Runtime) (buyer : AnonymousBuyerInput), (∃ c ∈ db.carts, c.pk = cartPk) →
        db.linesOf cartPk ≠ [] → (db.linesOf cartPk).length ≤ maxRetailOrderLines →
        ((∃ db', createRetailCheckoutFromCart rt db cartPk buyer = .ok db') ↔
          OrderAdmitted rt db.toDb buyer ((db.linesOf cartPk).map RetailCartLine.input)) := by
  have hok := CartLinesOk.ofRun hstart h
  refine ⟨⟨hok.quantities cartPk, hok.distinct cartPk⟩, ?_, fun rt buyer hcart hne hlength =>
    hok.checkout_iff hcart hne hlength⟩
  -- Of the three checks, only the number of lines is left open by the cart.
  rw [validateRetailLines_eq_ok, List.length_map]
  refine ⟨fun hvalid => ⟨?_, hvalid.2.1⟩, fun hvalid => ⟨?_, hvalid.2, hok.quantities cartPk⟩⟩
  · simpa using hvalid.1
  · simpa using hvalid.1

namespace Shop

/-- Twenty-one products, each with a retail offer at 10.00, and an empty cart. -/
def assortment : RetailDb where
  toDb := { Db.empty with
    products := Table.empty.insertAll (List.replicate 21 ⟨fun pk =>
      ⟨pk, some pk, "Brand", "Name", 100, "SS-" ++ Text.padded 3 pk, true⟩, fun _ => rfl⟩)
    commercialPrices := Table.empty.insertAll (List.replicate 21 ⟨fun pk =>
      ⟨pk, pk, none, .retail, "", true, retailOffer.amounts⟩, fun _ => rfl⟩)
    postalAreas := areas }
  carts := cartDb.carts
  cartLines := .empty

/-- One unit of each product. -/
def oneOfEach : List CartMutation := (List.range 21).map (fun n => .add (n + 1) 1)

/-- The cart after these additions. -/
def longCart : Result RetailDb :=
  oneOfEach.foldlM (fun db mutation => mutation.run db 1) assortment

end Shop

/-- Two units of one product in the cart: the lines pass. -/
theorem cart_passes_line_checks_shop :
    ∃ db, addRetailCartLine Shop.assortment 1 1 2 = .ok db
      ∧ validateRetailLines ((db.linesOf 1).map RetailCartLine.input) = .ok () := by
  have hcomputed : (addRetailCartLine Shop.assortment 1 1 2).toOption.any
      (fun db => (db.linesOf 1).length = 1) = true := by
    decide +kernel
  obtain ⟨db, hadd, hone⟩ := exists_of_any hcomputed
  have hone : (db.linesOf 1).length = 1 := of_decide_eq_true hone
  have hrun : Run MutationStep Shop.assortment [.mutate 1 (.add 1 2)] db :=
    Run.single (MutationStep.mutate hadd)
  refine ⟨db, hadd, (cart_passes_line_checks Table.not_mem_empty hrun 1).2.1.mpr ⟨?_, ?_⟩⟩
  · exact List.ne_nil_of_length_pos (by omega)
  · rw [hone]
    decide

/-- Services that go through, one after the other, are a run. -/
theorem run_of_mutations {cartPk : ℕ} {mutations : List CartMutation} {db db' : RetailDb}
    (h : mutations.foldlM (fun db mutation => mutation.run db cartPk) db = .ok db') :
    ∃ ms, Run MutationStep db ms db' := by
  have hchain := chain_of_foldlM (R := fun mutation s t => mutation.run s cartPk = .ok t)
    (fun _ _ _ hok => hok) h
  induction hchain with
  | nil => exact ⟨[], Run.nil _⟩
  | cons hstep _ ih =>
    rw [List.foldlM_cons, hstep] at h
    obtain ⟨ms, hrun⟩ := ih h
    exact ⟨_, (Run.single (MutationStep.mutate hstep)).append hrun⟩

/-- **Too long.** Every line was added without complaint and nothing else is wrong with the order,
    but there are more lines than an order may have. -/
theorem cart_too_long :
    ∃ db ms, Run MutationStep Shop.assortment ms db ∧ (∀ l, l ∉ Shop.assortment.cartLines)
      ∧ (∃ c ∈ db.carts, c.pk = 1) ∧ (db.linesOf 1).length = 21
      ∧ validateRetailLines ((db.linesOf 1).map RetailCartLine.input)
        = .error (.invalidRetailOrder "order contains too many lines")
      ∧ isSupportedRetailDestination (Shop.runtime 1) db.toDb "SE" "1" "City" = true
      ∧ (((db.linesOf 1).map RetailCartLine.input).mapM
          (resolveRetailLine (Shop.runtime 1) db.toDb .eur)).map calculateOrderTotal = .ok 21000
      ∧ (createRetailCheckoutFromCart (Shop.runtime 1) db 1 Shop.buyer).map (fun _ => ())
        = .error (.invalidRetailOrder "order contains too many lines") := by
  -- Twenty-one additions of distinct offers, played out.
  have hcomputed : (Shop.longCart.toOption.any (fun db => (∃ c ∈ db.carts, c.pk = 1)
      ∧ (db.linesOf 1).length = 21
      ∧ validateRetailLines ((db.linesOf 1).map RetailCartLine.input)
        = .error (.invalidRetailOrder "order contains too many lines")
      ∧ isSupportedRetailDestination (Shop.runtime 1) db.toDb "SE" "1" "City" = true
      ∧ (((db.linesOf 1).map RetailCartLine.input).mapM
          (resolveRetailLine (Shop.runtime 1) db.toDb .eur)).map calculateOrderTotal = .ok 21000
      ∧ (createRetailCheckoutFromCart (Shop.runtime 1) db 1 Shop.buyer).map (fun _ => ())
        = .error (.invalidRetailOrder "order contains too many lines"))) = true := by
    decide +kernel
  obtain ⟨db, hcart, hdb⟩ := exists_of_any hcomputed
  obtain ⟨ms, hrun⟩ := run_of_mutations hcart
  exact ⟨db, ms, hrun, Table.not_mem_empty, of_decide_eq_true hdb⟩

end SwedeSweets
