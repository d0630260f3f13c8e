import SwedeSweets.Concurrency.Baskets
import SwedeSweets.Concurrency.CartTransactions

namespace SwedeSweets

open Relational Fallible Transition Interleaving ReadCommitted

/-!
# Concurrent updates of baskets and carts

Any number of workers add to one cart and check it out.  The turn is the row of the cart.
`CartKept` is the invariant: either the cart holds what it held at the start and what was added
since, or it has become one order that does.

`basket_updates_add_up` — no update of a draft or a cart is lost, and none is doubled.
-/

variable {ω : Type}

/-- The units of an offer that a call adds. -/
def CartCall.added (k : ℕ) : CartCall → ℤ
  | .add commercialPriceId quantity => if commercialPriceId = k then quantity else 0
  | .checkout _ => 0

def CartCall.isCheckout : CartCall → Bool
  | .add _ _ => false
  | .checkout _ => true

/-- The orders that were created since the start. -/
def orderedSince (start db : RetailDb) : List Order :=
  db.orders.select (fun o => start.orders.next ≤ o.pk)

/-- The units of an offer on the retail lines of an order. -/
def orderedUnits (db : RetailDb) (orderPk k : ℕ) : ℕ :=
  ((db.orderLines orderPk).map
    (fun l => if l.retailOfferSelection = some k then l.quantityInUnits else 0)).sum

/-- The units of an offer that the calls in a log have added. -/
def cartAdded (calls : ω → Runtime × CartCall) (log : List ω) (k : ℕ) : ℤ :=
  (log.map (fun w => (calls w).2.added k)).sum

/-- The cart is being filled, or has become an order. -/
inductive CartKept (cartPk : ℕ) (calls : ω → Runtime × CartCall) (start db : RetailDb)
    (log : List ω) : Prop where
  | filling (same : db.toDb = start.toDb) (adds : ∀ w ∈ log, (calls w).2.isCheckout = false)
      (units : ∀ k, (cartUnits db cartPk k : ℤ)
        = cartUnits start cartPk k + cartAdded calls log k)
  | checkedOut (o : Order) (created : orderedSince start db = [o])
      (gone : ∀ c ∈ db.carts, c.pk ≠ cartPk) (empty : db.linesOf cartPk = [])
      (one : ∃ w ∈ log, (calls w).2.isCheckout = true
        ∧ ∀ v ∈ log, (calls v).2.isCheckout = true → v = w)
      (units : ∀ k, (orderedUnits db o.pk k : ℤ)
        = cartUnits start cartPk k + cartAdded calls log k)

/-! ### One call -/

section

variable {cartPk : ℕ} {calls : ω → Runtime × CartCall} {start db db' : RetailDb} {log note : List ω}
  {w : ω} {times : ℕ → Prop}

/-- What one more committed call adds. -/
@[simp] theorem cartAdded_append (k : ℕ) :
    cartAdded calls (log ++ [w]) k = cartAdded calls log k + (calls w).2.added k := by
  simp [cartAdded]

/-- An addition finds the cart that is being filled. -/
theorem CartKept.add (h : CartKept cartPk calls start db log) {k : ℕ} {quantity : ℤ}
    (hcall : (calls w).2 = .add k quantity)
    (hadd : addRetailCartLine db cartPk k quantity = .ok db') :
    CartKept cartPk calls start db' (log ++ [w]) := by
  obtain ⟨⟨c, hc, hpk⟩, hdb, -, -, hunits⟩ := addRetailCartLine_eq_ok hadd
  cases h with
  | checkedOut o _ gone => exact absurd hpk (gone c hc)
  | filling same adds units =>
    refine .filling (hdb.trans same) (fun v hv => ?_) (fun j => ?_)
    · rcases List.mem_append.mp hv with hv | hv
      · exact adds v hv
      · rw [List.mem_singleton.mp hv, hcall]
        rfl
    · rw [hunits, units, cartAdded_append, hcall, add_assoc]
      rfl

/-- A checkout turns the cart that is being filled into an order. -/
theorem CartKept.checkout (h : CartKept cartPk calls start db log)
    (hlines : ∀ l ∈ start.lines, ∃ o ∈ start.orders, o.pk = l.orderId) {rt : Runtime}
    {buyer : AnonymousBuyerInput} (hcall : (calls w).2 = .checkout buyer)
    (hout : (createRetailCheckoutTx rt cartPk buyer (.commit [w])).Outcome times db db' note) :
    CartKept cartPk calls start db' (log ++ note) := by
  rw [outcome_createCheckout] at hout
  obtain ⟨⟨c, hc, hpk⟩, -, resolved, hres, now, -, rows, hrows, later, -, rfl, rfl⟩ := hout
  -- a cart is checked out once: afterwards it is gone
  cases h with
  | checkedOut o _ gone => exact absurd hpk (gone c hc)
  | filling same adds units =>
    have horders : db.orders = start.orders := congrArg Db.orders same
    have hlines' : db.lines = start.lines := congrArg Db.lines same
    have hnew : db.orderLines db.orders.next = [] := by
      refine Db.orderLines_of_fresh ?_ Inv.fresh_next
      rw [hlines', horders]
      exact hlines
    have hsold : List.Forall₂ (SoldLine db.toDb db.orders.next) (db.linesOf cartPk)
        ((db.checkedOut cartPk (retailDraft now rt) rows
          (later + retailCheckoutWindow)).orderLines db.orders.next) :=
      (orderLines_checkedOut hnew (pendingOrder_of hres hrows)).2
    refine .checkedOut ((retailDraft now rt).make db.orders.next) ?_ (fun x hx => ?_) ?_ ?_
      (fun k => ?_)
    · show (db.orders.insert (retailDraft now rt)).select _ = _
      rw [horders]
      exact Table.select_insert_fresh ..
    · have hx := (Table.mem_delete.mp hx).2
      simpa using hx
    · rw [List.eq_nil_iff_forall_not_mem]
      intro l hl
      obtain ⟨hl, hcart⟩ := RetailDb.mem_linesOf.mp hl
      have hl := (Table.mem_delete.mp hl).2
      simp [hcart] at hl
    · refine ⟨w, by simp, by rw [hcall]; rfl, fun v hv hcheckout => ?_⟩
      rcases List.mem_append.mp hv with hv | hv
      · rw [adds v hv] at hcheckout
        cases hcheckout
      · exact List.mem_singleton.mp hv
    -- what was ordered is what was in the cart
    · have hsum : orderedUnits (db.checkedOut cartPk (retailDraft now rt) rows
          (later + retailCheckoutWindow)) db.orders.next k = cartUnits db cartPk k := by
        rw [cartUnits_eq]
        unfold orderedUnits
        refine congrArg List.sum (map_eq_of_forall₂ hsold (fun cartLine l hl => ?_))
        rw [hl.selection, hl.quantity]
        simp
      show (orderedUnits _ db.orders.next k : ℤ) = _
      rw [hsum, units, cartAdded_append, hcall]
      simp [CartCall.added]

end

/-! ### Runs -/

abbrev CartPool (ω : Type) := Pool (Store CartRow RetailDb ω ω) (Progress CartRow RetailDb Error ω) ω

/-- All workers are about to begin, and nothing is locked. -/
def cartStart (cartPk : ℕ) (calls : ω → Runtime × CartCall) (now : Time) (db : RetailDb) :
    CartPool ω :=
  ⟨⟨now, db, fun _ => none, fun _ => none, []⟩,
    fun w => .running id ((calls w).2.tx (calls w).1 cartPk w)⟩

/-- One step of some worker, or of the clock. -/
abbrev CartStep [DecidableEq ω] : CartPool ω → Move ω → CartPool ω → Prop :=
  Step (transactions CartRow RetailDb Error ω ω)

section

variable [DecidableEq ω] {cartPk : ℕ} {calls : ω → Runtime × CartCall} {start : RetailDb} {w : ω}

/-- **One worker.** -/
theorem safe_cartTx (hlines : ∀ l ∈ start.lines, ∃ o ∈ start.orders, o.pk = l.orderId)
    (s : Store CartRow RetailDb ω ω) :
    (turns (fun _ => CartRow.cart cartPk) (CartKept cartPk calls start)).Safe w
      ((calls w).2.tx (calls w).1 cartPk w) id s := by
  cases hcall : (calls w).2 with
  | add k quantity =>
    refine Discipline.safe_attempt (fun u hu => ?_)
    refine safe_of_lock (fun _ => rfl) (fun db log db' note hkept hout => ?_)
    have hout : (addRetailCartLineTx cartPk k quantity (.commit [w]) : CartTx ω).Outcome
        (fun _ => True) db db' note := Tx.outcome_attempt.mpr ⟨u, hu, hout⟩
    obtain ⟨db₁, hadd, rfl, rfl⟩ := outcome_addRetailCartLine.mp hout
    exact hkept.add hcall hadd
  | checkout buyer =>
    exact safe_of_lock (fun _ => rfl) (fun db log db' note hkept hout =>
      hkept.checkout hlines hcall hout)

omit [DecidableEq ω] in
/-- The worker signs its commit. -/
theorem signs_cartTx : ((calls w).2.tx (calls w).1 cartPk w : CartTx ω).Signs w := by
  cases (calls w).2 with
  | add k quantity =>
    have hmerge : ∀ line, (mergeLineTx line quantity (.commit [w]) : CartTx ω).Signs w := by
      intro line
      refine Tx.signs_attempt (fun _ => Tx.signs_attempt (fun row => ?_))
      show [w] = [w]
      rfl
    have hinsert : ∀ c p, (insertCartLineTx c p quantity (.commit [w]) : CartTx ω).Signs w := by
      intro c p
      refine Tx.signs_attempt (fun row => ?_)
      show (RetailDb → [w] = [w]) ∧ True
      exact ⟨fun _ => rfl, trivial⟩
    refine Tx.signs_attempt (fun _ _ => Tx.signs_attempt (fun c _ =>
      Tx.signs_attempt (fun price db => ?_)))
    beta_reduce
    cases findCartLine db c.pk price.1.pk with
    | some line => exact hmerge line
    | none => exact hinsert c.pk price.1.pk
  | checkout buyer =>
    have hinsert : ∀ (order : Order) (rows : List ResolvedRetailOrderLine) (k : CartTx ω),
        k.Signs w → (rows.foldr (insertRetailLineTx order) k).Signs w := by
      intro order rows k hk
      induction rows with
      | nil => exact hk
      | cons r rows ih => exact Tx.signs_attempt (fun _ => ih)
    have hresolve : ∀ (lines : List RetailOrderLineInput)
        (k : List ResolvedRetailOrderLine → CartTx ω), (∀ rs, (k rs).Signs w) →
          (resolveLinesTx (calls w).1 lines k).Signs w := by
      intro lines
      induction lines with
      | nil => exact fun k hk => hk []
      | cons line lines ih => exact fun k hk _ => Tx.signs_attempt (fun r => ih _ (fun rs => hk _))
    have hpending : ∀ (lines : List RetailOrderLineInput) (k : CartTx ω), k.Signs w →
        (createPendingRetailOrderTx (calls w).1 buyer lines k).Signs w := by
      intro lines k hk
      unfold createPendingRetailOrderTx
      -- no commit depends on whether the buyer can be saved
      generalize snapshotBuyer (buyerFromAnonymousRetailInput (calls w).1 buyer) = saved
      refine fun _ => Tx.signs_attempt (fun _ => Tx.signs_attempt (fun _ =>
        hresolve _ _ (fun resolved => ?_)))
      refine Tx.signs_attempt (fun _ => Tx.signs_attempt (fun _ => Tx.signs_attempt (fun _ => ?_)))
      exact fun now db => hinsert _ _ _ (fun _ => hk)
    refine fun _ => Tx.signs_attempt (fun c db => Tx.signs_attempt (fun _ => ?_))
    exact hpending _ _ rfl

end

/-- At most one order was created from the cart, by the one checkout that was committed; what was
    in the cart and what was added since is in that order when there is one, and in the cart
    otherwise. -/
structure CartAddsUp [Fintype ω] (cartPk : ℕ) (calls : ω → Runtime × CartCall) (start : RetailDb)
    (t : CartPool ω) : Prop where
  oneOrder : (orderedSince start t.shared.db).length ≤ 1
  oneCheckout : ∀ v w, t.locals v = .committed → t.locals w = .committed →
    (calls v).2.isCheckout = true → (calls w).2.isCheckout = true → v = w
  checkedOut : (∃ w, t.locals w = .committed ∧ (calls w).2.isCheckout = true)
    ↔ orderedSince start t.shared.db ≠ []
  inCart : orderedSince start t.shared.db = [] → ∀ k, (cartUnits t.shared.db cartPk k : ℤ)
    = cartUnits start cartPk k + ∑ w with (t.locals w).isCommitted = true, (calls w).2.added k
  inOrder : ∀ o ∈ orderedSince start t.shared.db, (∀ c ∈ t.shared.db.carts, c.pk ≠ cartPk)
    ∧ t.shared.db.linesOf cartPk = [] ∧ ∀ k, (orderedUnits t.shared.db o.pk k : ℤ)
      = cartUnits start cartPk k + ∑ w with (t.locals w).isCommitted = true, (calls w).2.added k

/-- What the calls leave behind, from the invariant and the log. -/
theorem cartAddsUp_of_run [Fintype ω] [DecidableEq ω] {cartPk : ℕ}
    {calls : ω → Runtime × CartCall} {now : Time} {db : RetailDb} {t : CartPool ω}
    {ms : List (Move ω)} (hlines : ∀ l ∈ db.lines, ∃ o ∈ db.orders, o.pk = l.orderId)
    (h : Run CartStep (cartStart cartPk calls now db) ms t) : CartAddsUp cartPk calls db t := by
  have hstart : CartKept cartPk calls db db [] :=
    .filling rfl (fun w hw => absurd hw List.not_mem_nil) (fun k => by simp [cartAdded])
  have hkept : CartKept cartPk calls db t.shared.db t.shared.log :=
    turns_sound h hstart (fun _ => rfl) (fun w => safe_cartTx hlines _)
  obtain ⟨hnd, hmem⟩ := log_of_signed h rfl (fun _ => rfl) (fun w => signs_cartTx)
  have hadded : ∀ k, cartAdded calls t.shared.log k
      = ∑ w with (t.locals w).isCommitted = true, (calls w).2.added k :=
    fun k => sum_log hnd hmem (fun w => (calls w).2.added k)
  -- the cart is still there, or it was checked out by one worker
  cases hkept with
  | filling same adds units =>
    have hnone : orderedSince db t.shared.db = [] := by
      refine List.filter_eq_nil_iff.mpr (fun o ho => ?_)
      have hlt : o.pk < db.orders.next := db.orders.bounded o (congrArg Db.orders same ▸ ho)
      simpa using hlt
    have hno : ∀ w, t.locals w = .committed → (calls w).2.isCheckout ≠ true :=
      fun w hw => by rw [adds w ((hmem w).mpr hw)]; simp
    refine ⟨by rw [hnone]; simp, fun v w hv hw hcv _ => absurd hcv (hno v hv), ⟨?_, ?_⟩,
      fun _ k => by rw [units, hadded], fun o ho => by rw [hnone] at ho; cases ho⟩
    · rintro ⟨w, hw, hcw⟩
      exact absurd hcw (hno w hw)
    · exact fun hne => absurd hnone hne
  | checkedOut o created gone empty one units =>
    obtain ⟨w, hw, hcw, honly⟩ := one
    refine ⟨by rw [created]; simp, fun u v hu hv hcu hcv => ?_, ⟨fun _ => by rw [created]; simp,
      fun _ => ⟨w, (hmem w).mp hw, hcw⟩⟩, fun hnil => ?_, fun x hx => ?_⟩
    · rw [honly u ((hmem u).mpr hu) hcu, honly v ((hmem v).mpr hv) hcv]
    · rw [created] at hnil
      cases hnil
    · rw [created, List.mem_singleton] at hx
      subst hx
      exact ⟨gone, empty, fun k => by rw [units, hadded]⟩

/-- **Basket updates add up.** Along every interleaving of additions to the draft of one customer,
    in a database that business calls have led to, the draft adds up; along every interleaving of
    additions to one cart and checkouts of it, cart and order add up. -/
theorem basket_updates_add_up {ω : Type} [Fintype ω] [DecidableEq ω] :
    (∀ (customer : ℕ) (calls : ω → Runtime × Business.CatalogCall) (now : Time) (db : Db)
        (bs : List BusinessMove) (ms : List (Move ω)) (t : Business.BasketPool ω),
      Run BusinessStep Db.empty bs db → (db.draftsOf customer).length ≤ 1 →
      Run Business.BasketStep (Business.basketStart customer calls now db) ms t →
      Business.BasketAddsUp customer calls db t)
    ∧ ∀ (cartPk : ℕ) (calls : ω → Runtime × CartCall) (now : Time) (db : RetailDb)
        (ms : List (Move ω)) (t : CartPool ω),
      (∀ l ∈ db.lines, ∃ o ∈ db.orders, o.pk = l.orderId) →
      Run CartStep (cartStart cartPk calls now db) ms t → CartAddsUp cartPk calls db t :=
  ⟨fun _ _ _ _ _ _ _ hreached hone hrun =>
      Business.basketAddsUp_of_run (OneLinePerOffer.ofRun hreached) hone hrun,
    fun _ _ _ _ _ _ hlines hrun => cartAddsUp_of_run hlines hrun⟩

namespace Shop

/-- Two workers add the standard offer to the draft of customer 7, who has none. -/
def additions (w : Bool) : Runtime × Business.CatalogCall := (runtime 1, ⟨product, 1, cond w 2 3⟩)

/-- Both find no draft; one inserts it, and the other waits and meets the unique constraint. -/
def additionSchedule : List (Slot Bool) :=
  List.replicate 4 (.work false) ++ List.replicate 15 (.work true)
    ++ List.replicate 10 (.work false)

/-- A cart with one unit of the retail offer. -/
def cartDb : RetailDb where
  toDb := (State.init.after opening).db
  carts := ⟨[⟨1⟩], 2, by decide, by decide⟩
  cartLines := ⟨[⟨1, 1, 2, 1, by decide⟩], 2, by decide, by decide⟩

/-- One worker adds two units, the other checks the cart out. -/
def cartCalls (w : Bool) : Runtime × CartCall :=
  (runtime 1, cond w (.add 2 2) (.checkout buyer))

/-- The addition has locked the cart, and the checkout comes after it. -/
def cartSchedule : List (Slot Bool) :=
  List.replicate 5 (.work true) ++ List.replicate 12 (.work false)

end Shop

/-- Both additions are on one line of one draft, and the checkout has sold what was added. -/
theorem basket_updates_add_up_shop :
    (∃ t ms, Run Business.BasketStep (Business.basketStart 7 Shop.additions 1
        (State.init.after Shop.opening).db) ms t ∧ (∀ w, t.locals w = .committed)
      ∧ Business.BasketAddsUp 7 Shop.additions (State.init.after Shop.opening).db t)
    ∧ ∃ t ms, Run CartStep (cartStart 1 Shop.cartCalls 1 Shop.cartDb) ms t
      ∧ (∀ w, t.locals w = .committed) ∧ CartAddsUp 1 Shop.cartCalls Shop.cartDb t := by
  have hnone : (State.init.after Shop.opening).db.lines.rows = [] := by decide +kernel
  -- the draft of the business customer, and the cart
  refine ⟨?_, ?_⟩
  · have hplay : (play (fun _ _ => true) Shop.additionSchedule
        (Business.basketStart 7 Shop.additions 1 (State.init.after Shop.opening).db)).any
          (fun t => (t.locals true).isCommitted && (t.locals false).isCommitted) = true := by
      decide +kernel
    obtain ⟨t, ms, hrun, hend⟩ := run_of_play (fun _ _ => True) (fun _ _ _ => trivial) hplay
    rw [Bool.and_eq_true, Progress.isCommitted_iff, Progress.isCommitted_iff] at hend
    have hrun : Run Business.BasketStep _ ms t := hrun.mono (fun _ _ _ _ hst => hst.2)
    have helsewhere : Elsewhere Db.empty (State.init.after Shop.opening).db :=
      ⟨rfl, fun o ho => absurd ho (Table.not_mem_empty o),
        fun o _ => Or.inr (fun l hl => absurd hl (Table.not_mem_empty l))⟩
    have hreached := Run.single (BusinessStep.elsewhere helsewhere)
    exact ⟨t, ms, hrun, fun w => by cases w; exacts [hend.2, hend.1],
      basket_updates_add_up.1 7 Shop.additions 1 _ _ ms t hreached (by decide +kernel) hrun⟩
  · have hplay : (play (fun _ _ => true) Shop.cartSchedule
        (cartStart 1 Shop.cartCalls 1 Shop.cartDb)).any
          (fun t => (t.locals true).isCommitted && (t.locals false).isCommitted) = true := by
      decide +kernel
    obtain ⟨t, ms, hrun, hend⟩ := run_of_play (fun _ _ => True) (fun _ _ _ => trivial) hplay
    rw [Bool.and_eq_true, Progress.isCommitted_iff, Progress.isCommitted_iff] at hend
    have hrun : Run CartStep _ ms t := hrun.mono (fun _ _ _ _ hst => hst.2)
    have hlines : ∀ l ∈ Shop.cartDb.lines, ∃ o ∈ Shop.cartDb.orders, o.pk = l.orderId := by
      intro l hl
      have hl : l ∈ (State.init.after Shop.opening).db.lines := hl
      rw [Table.mem_def, hnone] at hl
      cases hl
    exact ⟨t, ms, hrun, fun w => by cases w; exacts [hend.2, hend.1],
      basket_updates_add_up.2 1 Shop.cartCalls 1 _ ms t hlines hrun⟩

end SwedeSweets
