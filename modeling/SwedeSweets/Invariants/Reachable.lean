import SwedeSweets.Invariants.Payments
import SwedeSweets.System

namespace SwedeSweets

open Relational Fallible Transition

/-!
# The system invariant along runs

* `Kept rt db op db'` — what one operation keeps: the invariant; the stock, unless the
  operation is one that moves stock; the payment attempts, unless it is one of theirs;
* `Inv.exec` — every operation keeps it, one case per operation;
* `inv_of_reachable` — so the invariant holds in every reachable state;
* `quantitiesFit_of_reachable` — there the column of the quantity holds that of every batch.
-/

namespace Op

/-- The operations that may change a batch. -/
def movesStock : Op → Bool
  | .createBatch .. | .updateBatch .. | .closeBatch .. | .packOrder .. => true
  | _ => false

/-- The operations that may change a payment attempt. -/
def movesPayments : Op → Bool
  | .startRetailPayment .. | .beginRetailHostedPayment .. | .retryRetailHostedPayment ..
  | .completeRetailPayment .. | .failRetailPayment .. | .reconcileRetailPayment ..
  | .cancelPendingPaymentAttempts .. => true
  | _ => false

end Op

/-- What one operation keeps. -/
structure Kept (rt : Runtime) (op : Op) (db db' : Db) : Prop where
  inv : Inv rt.now db'
  stock : op.movesStock = false → StockQuiet db db'
  attempts : op.movesPayments = false → db'.paymentAttempts = db.paymentAttempts

/-- Nothing happened. -/
theorem StockQuiet.refl (db : Db) : StockQuiet db db := ⟨rfl, fun _ ha _ => ha⟩

/-- Steps that leave the stock alone compose. -/
theorem StockQuiet.trans {db db₁ db₂ : Db} (h : StockQuiet db db₁) (h' : StockQuiet db₁ db₂) :
    StockQuiet db db₂ :=
  ⟨h'.batches.trans h.batches, fun a ha hst => h.consumed a (h'.consumed a ha hst) hst⟩

namespace Kept

variable {rt : Runtime} {op : Op} {db db' : Db}

/-- An operation that was refused keeps everything. -/
theorem refl (h : Inv rt.now db) : Kept rt op db db :=
  ⟨h, fun _ => StockQuiet.refl db, fun _ => rfl⟩

/-- An operation that leaves stock and attempts alone. -/
theorem ofQuiet (h : Inv rt.now db' ∧ Quiet db db') : Kept rt op db db' :=
  ⟨h.1, fun _ => h.2.toStockQuiet, fun _ => h.2.attempts⟩

/-- A payment operation leaves the stock alone. -/
theorem ofPayments (hop : op.movesPayments = true) (h : Inv rt.now db' ∧ StockQuiet db db') :
    Kept rt op db db' :=
  ⟨h.1, fun _ => h.2, fun hno => by rw [hop] at hno; cases hno⟩

/-- A stock operation leaves the attempts alone. -/
theorem ofStock (hop : op.movesStock = true) (h : Inv rt.now db')
    (hattempts : db'.paymentAttempts = db.paymentAttempts) : Kept rt op db db' :=
  ⟨h, fun hno => (by rw [hop] at hno; cases hno), fun _ => hattempts⟩

end Kept

/-- A transaction that raises leaves the database as it was. -/
theorem Db.commit_of {P : Db → Prop} {db : Db} {r : Result Db} (hok : ∀ db', r = .ok db' → P db')
    (herr : P db) : P (db.commit r) := by
  cases r with
  | error e => exact herr
  | ok db' => exact hok db' rfl

/-- A transaction that returns is committed. -/
theorem Db.commit_eq {db : Db} {r : Result Db} (h : r.isOk = true) : r = .ok (db.commit r) := by
  cases r with
  | error e => cases h
  | ok db' => rfl

namespace Inv

variable {rt : Runtime} {now : Time} {db db' : Db}

/-- A write on the batches that keeps every batch's key and product. -/
theorem withBatches {t : Table InventoryBatch} (h : Inv now db)
    (ht : ∀ b ∈ db.batches, ∃ b' ∈ t, b'.pk = b.pk ∧ b'.productId = b.productId)
    (hstock : NoOversell now { db with batches := t }) : Inv now { db with batches := t } :=
  ⟨hstock, (Touches.batches (k := 0) ht).references h.references,
    fun o ho => ⟨(h.orders o ho).stock, (h.orders o ho).payment⟩⟩

/-- Overwriting a batch keeps its key and product. -/
theorem mem_putBatch {b b' : InventoryBatch} (hb : b ∈ db.batches) (hpk : b'.pk = b.pk)
    (hprod : b'.productId = b.productId) :
    ∀ x ∈ db.batches, ∃ x' ∈ db.batches.put b', x'.pk = x.pk ∧ x'.productId = x.productId := by
  intro x hx
  have hput := fun y => Table.mem_put (t := db.batches) (r := b') (x := y) ⟨b, hb, hpk.symm⟩
  by_cases hxb : x.pk = b'.pk
  · have hxb' : x = b := Table.eq_of_pk_eq hx hb (hxb.trans hpk)
    subst hxb'
    exact ⟨b', (hput b').mpr (Or.inl rfl), hpk, hprod⟩
  · exact ⟨x, (hput x).mpr (Or.inr ⟨hx, hxb⟩), rfl, rfl⟩

/-- **Creating a batch.** -/
theorem createBatch {productPk : ℕ} {quantity : ℤ} {bestBefore : Date}
    {location : String} {batchId : Option String} {today : Option Date} {allow : Bool}
    {user : Option ℕ} (h : Inv now db)
    (hok : SwedeSweets.createBatch rt db productPk quantity bestBefore location batchId today
      allow user = .ok db') : Inv now db' ∧ db'.paymentAttempts = db.paymentAttempts := by
  have hstock := h.stock.createBatch h.references.batch hok
  obtain ⟨-, -, product, batchId, location, rfl⟩ := createBatch_eq_ok hok
  exact ⟨h.withBatches (fun b hb => ⟨b, Table.mem_insert.mpr (Or.inl hb), rfl, rfl⟩) hstock, rfl⟩

/-- **Correcting a batch.** -/
theorem updateBatch {batchPk : ℕ} {quantity : ℤ} {bestBefore : Date}
    {location : String} {user : Option ℕ} (h : Inv rt.now db)
    (hok : SwedeSweets.updateBatch rt db batchPk quantity bestBefore location user = .ok db') :
    Inv rt.now db' ∧ db'.paymentAttempts = db.paymentAttempts := by
  have hstock := h.stock.updateBatch hok
  obtain ⟨b, hb, rfl, -, -, -, -, location, rfl⟩ := updateBatch_eq_ok hok
  exact ⟨h.withBatches (mem_putBatch hb rfl rfl) hstock, rfl⟩

/-- **Closing a batch.** -/
theorem closeBatch {batchPk : ℕ} {user : Option ℕ} (h : Inv rt.now db)
    (hok : SwedeSweets.closeBatch rt db batchPk user = .ok db') :
    Inv rt.now db' ∧ db'.paymentAttempts = db.paymentAttempts := by
  have hstock := h.stock.closeBatch hok
  obtain ⟨b, hb, rfl, -, rfl⟩ := closeBatch_eq_ok.mp hok
  exact ⟨h.withBatches (mem_putBatch hb rfl rfl) hstock, rfl⟩

/-- Packing leaves the payment attempts alone. -/
theorem pack_attempts {k : ℕ} {user : Option ℕ}
    (hok : Fulfillment.packOrder rt db k user = .ok db') :
    db'.paymentAttempts = db.paymentAttempts := by
  obtain ⟨o, -, -, -, -, rfl⟩ := packOrder_fulfillment_eq_ok.mp hok
  rfl

/-! ### Operations that run several services -/

/-- **Editing the catalog.** -/
theorem catalog (h : Inv now db) (products : Table Product)
    (commercialPrices : Table CommercialPrice) (postalAreas : Table RetailPostalArea) :
    Inv now { db with
      products := products, commercialPrices := commercialPrices, postalAreas := postalAreas } :=
  ⟨h.stock.frame rfl rfl, ⟨h.references.line, h.references.allocation, h.references.attempt⟩,
    fun o ho => ⟨(h.orders o ho).stock, (h.orders o ho).payment⟩⟩

/-- A business draft is for the BUSINESS channel. -/
theorem buildDraft_channel {lines : List ResolvedOrderLine} {customer : ℕ} {draft : OrderDraft}
    (h : businessOrderDraft customer lines = .ok draft) : draft.channel = .business := by
  unfold businessOrderDraft at h
  simp only [bind_eq_ok, pure_eq_ok] at h
  obtain ⟨-, -, rfl⟩ := h
  rfl

/-- **Creating and placing an order.** -/
theorem createOrder {customer : ℕ} {lines : List OrderLineInput} {user : Option ℕ}
    (h : Inv rt.now db) (hok : Business.createOrder rt db customer lines user = .ok db') :
    Inv rt.now db' ∧ Quiet db db' := by
  unfold Business.createOrder Business.createDraftOrder buildBusinessOrderDraft at hok
  simp only [bind_eq_ok] at hok
  obtain ⟨r, ⟨draft, ⟨resolved, -, hdraft⟩, hcreate⟩, hplace⟩ := hok
  exact h.createAndPlace (buildDraft_channel hdraft) hcreate hplace

/-- The ops portal leaves the draft behind when the placement raises. -/
theorem opsCreateOrder (customer : ℕ) (lines : List BusinessOfferLineInput) (user : Option ℕ)
    (h : Inv rt.now db) :
    Inv rt.now (OpsPortal.createOrder rt db customer lines user).1
      ∧ Quiet db (OpsPortal.createOrder rt db customer lines user).1 := by
  unfold OpsPortal.createOrder
  split
  · exact ⟨h, Quiet.refl db⟩
  · rename_i drafted order hcreate
    simp only [bind_eq_ok, buildOpsOrderDraft] at hcreate
    obtain ⟨draft, ⟨resolved, -, hdraft⟩, hcreate⟩ := hcreate
    have hch := buildDraft_channel hdraft
    split
    · exact h.createDraft hch hcreate
    · rename_i placed hplace
      exact h.createAndPlace hch hcreate hplace

/-- **Editing a PLACED order, as the business services do.** -/
theorem businessUpdatePlaced {k : ℕ} {lines : List OrderLineInput} {user : Option ℕ}
    (h : Inv rt.now db) (hok : Business.updatePlacedOrder rt db k lines user = .ok db') :
    Inv rt.now db' ∧ Quiet db db' := by
  unfold Business.updatePlacedOrder at hok
  simp only [bind_eq_ok] at hok
  obtain ⟨resolved, -, hok⟩ := hok
  exact h.updatePlaced hok

/-- **Editing a PLACED order, as the ops portal does.** -/
theorem opsUpdatePlaced {k : ℕ} {lines : List BusinessOfferLineInput} {user : Option ℕ}
    (h : Inv rt.now db) (hok : OpsPortal.updatePlacedOrder rt db k lines user = .ok db') :
    Inv rt.now db' ∧ Quiet db db' := by
  unfold OpsPortal.updatePlacedOrder at hok
  simp only [bind_eq_ok] at hok
  obtain ⟨resolved, -, hok⟩ := hok
  exact h.updatePlaced hok

/-- **Creating a hosted session.** -/
theorem createHostedSession {attemptPk : ℕ} {session : HostedPaymentSession}
    {r : Db × RetailPaymentRedirect} (h : Inv now db)
    (hok : createRetailHostedPaymentSession db attemptPk session = .ok r) :
    Inv now r.1 ∧ StockQuiet db r.1 :=
  h.bind (createRetailHostedPaymentSession_eq_ok hok)

/-- The attempt stays behind, committed, when the provider session cannot be bound. -/
theorem beginHosted (checkoutPk : ℕ) (session : HostedPaymentSession) (h : Inv rt.now db) :
    Inv rt.now (beginRetailHostedPayment rt db checkoutPk session).1
      ∧ StockQuiet db (beginRetailHostedPayment rt db checkoutPk session).1 := by
  unfold beginRetailHostedPayment
  split
  · exact ⟨h, StockQuiet.refl db⟩
  · rename_i started attempt hstart
    obtain ⟨hinv, hquiet⟩ := h.start hstart
    split
    · exact ⟨hinv, hquiet⟩
    · rename_i bound session' hcreate
      obtain ⟨hinv', hquiet'⟩ := hinv.createHostedSession hcreate
      exact ⟨hinv', hquiet.trans hquiet'⟩

/-! ### One operation, and runs -/

/-- **Step.** Every operation keeps the invariant, and touches stock and payment attempts
    only when it is one of theirs. -/
theorem exec (h : Inv rt.now db) (op : Op) : Kept rt op db (op.exec rt db) := by
  -- One case for each operation; a refused one leaves the database as it is.
  cases op with
  | catalog products commercialPrices postalAreas =>
    exact Kept.ofQuiet ⟨h.catalog _ _ _, Quiet.frame rfl rfl rfl⟩
  | createBatch =>
    exact Db.commit_of (fun db' hok => Kept.ofStock rfl (h.createBatch hok).1 (h.createBatch hok).2)
      (Kept.refl h)
  | updateBatch =>
    exact Db.commit_of (fun db' hok => Kept.ofStock rfl (h.updateBatch hok).1 (h.updateBatch hok).2)
      (Kept.refl h)
  | closeBatch =>
    exact Db.commit_of (fun db' hok => Kept.ofStock rfl (h.closeBatch hok).1 (h.closeBatch hok).2)
      (Kept.refl h)
  | openDraft customer =>
    refine Db.commit_of (fun db' hok => ?_) (Kept.refl h)
    obtain ⟨r, hr, rfl⟩ := map_eq_ok.mp hok
    exact Kept.ofQuiet (h.getOrCreateDraft hr)
  | addDraftLine orderPk line =>
    refine Db.commit_of (fun db' hok => ?_) (Kept.refl h)
    obtain ⟨u, hbus, hok⟩ := bind_eq_ok.mp hok
    exact Kept.ofQuiet (h.addDraftLine (requireBusinessOrder_eq_ok hbus) hok)
  | setDraftLine orderPk orderLineId quantityInUnits =>
    refine Db.commit_of (fun db' hok => ?_) (Kept.refl h)
    obtain ⟨u, hbus, hok⟩ := bind_eq_ok.mp hok
    exact Kept.ofQuiet (h.setDraftLine (requireBusinessOrder_eq_ok hbus) hok)
  | removeDraftLine orderPk orderLineId =>
    refine Db.commit_of (fun db' hok => ?_) (Kept.refl h)
    obtain ⟨u, hbus, hok⟩ := bind_eq_ok.mp hok
    exact Kept.ofQuiet (h.removeDraftLine (requireBusinessOrder_eq_ok hbus) hok)
  | placeOrder =>
    exact Db.commit_of (fun db' hok => Kept.ofQuiet (h.placeBusiness hok)) (Kept.refl h)
  | createOrder =>
    exact Db.commit_of (fun db' hok => Kept.ofQuiet (h.createOrder hok)) (Kept.refl h)
  | updatePlacedOrder =>
    exact Db.commit_of (fun db' hok => Kept.ofQuiet (h.businessUpdatePlaced hok)) (Kept.refl h)
  | opsCreateOrder customer lines user =>
    exact Kept.ofQuiet (h.opsCreateOrder customer lines user)
  | opsUpdatePlacedOrder =>
    exact Db.commit_of (fun db' hok => Kept.ofQuiet (h.opsUpdatePlaced hok)) (Kept.refl h)
  | createPendingRetailOrder =>
    exact Db.commit_of (fun db' hok => Kept.ofQuiet (h.createPending hok)) (Kept.refl h)
  | startRetailPayment checkoutPk =>
    refine Db.commit_of (fun db' hok => ?_) (Kept.refl h)
    obtain ⟨r, hr, rfl⟩ := map_eq_ok.mp hok
    obtain ⟨hinv, hquiet⟩ := h.start hr
    exact Kept.ofPayments rfl ⟨hinv, hquiet⟩
  | beginRetailHostedPayment checkoutPk session =>
    exact Kept.ofPayments rfl (h.beginHosted checkoutPk session)
  | retryRetailHostedPayment attemptPk session =>
    refine Db.commit_of (fun db' hok => ?_) (Kept.refl h)
    obtain ⟨r, hr, rfl⟩ := map_eq_ok.mp hok
    exact Kept.ofPayments rfl (h.createHostedSession hr)
  | completeRetailPayment =>
    exact Db.commit_of (fun db' hok => Kept.ofPayments rfl (h.complete hok)) (Kept.refl h)
  | failRetailPayment =>
    exact Db.commit_of (fun db' hok => Kept.ofPayments rfl (h.fail hok)) (Kept.refl h)
  | reconcileRetailPayment =>
    exact Db.commit_of (fun db' hok => Kept.ofPayments rfl (h.reconcile hok)) (Kept.refl h)
  | cancelPendingPaymentAttempts =>
    exact Db.commit_of (fun db' hok => Kept.ofPayments rfl (h.cancelPending hok)) (Kept.refl h)
  | packOrder =>
    exact Db.commit_of (fun db' hok => Kept.ofStock rfl (h.pack hok) (pack_attempts hok))
      (Kept.refl h)
  | deliverOrder =>
    exact Db.commit_of (fun db' hok => Kept.ofQuiet (h.deliver hok)) (Kept.refl h)
  | cancelOrder =>
    exact Db.commit_of (fun db' hok => Kept.ofQuiet (h.cancel hok)) (Kept.refl h)

/-- The empty database. -/
theorem empty (now : Time) : Inv now Db.empty where
  stock := NoOversell.empty now
  references := ⟨fun l hl => (Table.not_mem_empty l hl).elim,
    fun a ha => (Table.not_mem_empty a ha).elim, fun p hp => (Table.not_mem_empty p hp).elim⟩
  orders o ho := (Table.not_mem_empty o ho).elim

end Inv

/-- One step of the system keeps the invariant. -/
theorem SystemStep.kept {s t : State} {l : Runtime × Op} (h : Inv s.clock s.db)
    (hst : SystemStep s l t) : Kept l.1 l.2 s.db t.db := by
  obtain ⟨hle, rfl⟩ := hst
  exact (h.later hle).exec l.2

/-- A step of the system keeps the invariant. -/
theorem SystemStep.inv {s t : State} {l : Runtime × Op} (h : Inv s.clock s.db)
    (hst : SystemStep s l t) : Inv t.clock t.db := by
  have hinv := (hst.kept h).inv
  obtain ⟨-, rfl⟩ := hst
  exact hinv

/-- **Runs.** The invariant holds in every reachable state. -/
theorem inv_of_reachable {s : State} (h : Reachable s) : Inv s.clock s.db := by
  obtain ⟨ls, hrun⟩ := h
  exact hrun.invariant (I := fun s => Inv s.clock s.db) (fun _ _ _ hI hst => hst.inv hI)
    (Inv.empty 0)

/-! ### Quantities -/

/-- The column of the quantity holds that of every batch. -/
def Db.QuantitiesFit (db : Db) : Prop := ∀ b ∈ db.batches, b.quantity ≤ maxInteger

/-- Overwriting a batch with a quantity that fits. -/
theorem Db.QuantitiesFit.putBatch {db : Db} {b : InventoryBatch} (h : db.QuantitiesFit)
    (hb : b.quantity ≤ maxInteger) :
    Db.QuantitiesFit { db with batches := db.batches.put b } := by
  intro x hx
  rcases Table.of_mem_put hx with rfl | ⟨hx, -⟩
  · exact hb
  · exact h x hx

/-- A new quantity has passed its column, and picking only takes away. -/
theorem Db.QuantitiesFit.exec {rt : Runtime} {db : Db} (h : db.QuantitiesFit) (hinv : Inv rt.now db)
    (op : Op) : (op.exec rt db).QuantitiesFit := by
  by_cases hmoves : op.movesStock = true
  · -- the four operations that write batches
    cases op with
    | createBatch =>
      refine Db.commit_of (fun db' hok => ?_) h
      obtain ⟨-, hcolumn, product, batchId, location, rfl⟩ := createBatch_eq_ok hok
      intro b hb
      rcases Table.mem_insert.mp hb with hb | rfl
      · exact h b hb
      · exact hcolumn
    | updateBatch =>
      refine Db.commit_of (fun db' hok => ?_) h
      obtain ⟨b, -, -, -, -, -, hcolumn, location, rfl⟩ := updateBatch_eq_ok hok
      exact h.putBatch hcolumn
    | closeBatch =>
      refine Db.commit_of (fun db' hok => ?_) h
      obtain ⟨b, hb, -, -, rfl⟩ := closeBatch_eq_ok.mp hok
      exact h.putBatch (h b hb)
    | packOrder =>
      refine Db.commit_of (fun db' hok => ?_) h
      obtain ⟨o, -, -, -, -, rfl⟩ := Inv.packOrder_fulfillment_eq_ok.mp hok
      intro b' hb'
      obtain ⟨b, hb, rfl⟩ := Table.mem_modify.mp hb'
      have hquantity := h b hb
      split
      · exact le_trans (Nat.sub_le _ _) hquantity
      · exact hquantity
    | _ => cases hmoves
  · have hsame := ((hinv.exec op).stock (by simpa using hmoves)).batches
    intro b hb
    exact h b (hsame ▸ hb)

/-- In every reachable state the quantities fit. -/
theorem quantitiesFit_of_reachable {s : State} (h : Reachable s) : s.db.QuantitiesFit := by
  obtain ⟨ls, hrun⟩ := h
  refine (hrun.invariant (I := fun s => Inv s.clock s.db ∧ s.db.QuantitiesFit)
    (fun s l t hs hst => ⟨hst.inv hs.1, ?_⟩)
    ⟨Inv.empty 0, fun b hb => (Table.not_mem_empty b hb).elim⟩).2
  obtain ⟨hle, rfl⟩ := hst
  exact hs.2.exec (hs.1.later hle) l.2

/-- One step further is reachable as well. -/
theorem Reachable.step {s t : State} {l : Runtime × Op} (h : Reachable s)
    (hst : SystemStep s l t) : Reachable t := by
  obtain ⟨ls, hrun⟩ := h
  exact ⟨_, Run.snoc hrun hst⟩

end SwedeSweets
