import SwedeSweets.Business.Services
import SwedeSweets.Fulfillment.Services
import SwedeSweets.Invariants.Orders
import SwedeSweets.Invariants.Stock
import SwedeSweets.Orders.Effects

namespace SwedeSweets

open Relational Fallible

/-!
# The system invariant under the business and fulfillment operations

`Inv now db` collects no oversell, the foreign keys, and what holds of every order.  Each
operation of the business portal, the ops portal and fulfillment keeps it.
-/

/-- **The system invariant.** -/
structure Inv (now : Time) (db : Db) : Prop where
  stock : NoOversell now db
  references : References db
  orders : ∀ o ∈ db.orders, OrderOk db o

/-! ### Allocations of one order -/

/-- Units add up over the allocations. -/
@[simp] theorem unitsOf_append (as bs : List Allocation) (status : AllocationStatus) (l : ℕ) :
    unitsOf (as ++ bs) status l = unitsOf as status l + unitsOf bs status l := by
  simp [unitsOf]

/-- Without allocations of a status there are no units of it. -/
theorem unitsOf_eq_zero {as : List Allocation} {status : AllocationStatus}
    (h : Without status as) (l : ℕ) : unitsOf as status l = 0 := by
  unfold unitsOf
  rw [List.sum_eq_zero_iff]
  intro v hv
  obtain ⟨a, ha, rfl⟩ := List.mem_map.mp hv
  exact if_neg (fun hc => h a ha hc.2)

/-- The rows made of new allocations are theirs. -/
theorem mem_rowsOf {n : ℕ} {xs : List NewAllocation} {a : Allocation} (ha : a ∈ rowsOf n xs) :
    ∃ x ∈ xs, ∃ m, a = x.row.make m := by
  obtain ⟨x, hx, m, rfl⟩ := Table.mem_made_map ha
  exact ⟨x, hx, m, rfl⟩

/-- New rows are RESERVED, so they cover a line with the units reserved for it. -/
theorem unitsOf_rowsOf (n : ℕ) (xs : List NewAllocation) (l : ℕ) :
    unitsOf (rowsOf n xs) .reserved l = unitsOfLine xs l := by
  refine Db.sum_rowsOf _ _ (fun x m => ?_) n xs
  simp [NewAllocation.row]

/-- The allocations of an order after a reservation for it. -/
theorem orderAllocations_withReservations {db : Db} {xs : List NewAllocation} {k : ℕ}
    (hxs : ∀ x ∈ xs, x.line.orderId = k) :
    (db.withReservations xs).orderAllocations k
      = db.orderAllocations k ++ rowsOf db.allocations.next xs := by
  refine Table.select_insertAll_of (fun a ha => ?_)
  obtain ⟨x, hx, m, rfl⟩ := mem_rowsOf ha
  exact decide_eq_true (hxs x hx)

/-- A rewrite that keeps the order rewrites the allocations of an order row by row. -/
theorem orderAllocations_modify {db : Db} {p : Allocation → Bool} {u : Edit Allocation}
    (hu : ∀ a, (u.apply a).orderId = a.orderId) (k : ℕ) :
    ({ db with allocations := db.allocations.modify p u } : Db).orderAllocations k
      = (db.orderAllocations k).map (fun a => if p a then u.apply a else a) :=
  Table.select_modify _ _ _ _ (fun a => by simp [hu a])

/-- A status change keeps the order, the line and the batch. -/
theorem setStatus_keeps (status : AllocationStatus) (a : Allocation) :
    ((setStatus status).apply a).orderId = a.orderId
      ∧ ((setStatus status).apply a).orderLineId = a.orderLineId
      ∧ ((setStatus status).apply a).batchId = a.batchId := ⟨rfl, rfl, rfl⟩

/-- Reserving the lines of an order that holds nothing yet secures it. -/
theorem secured_of_reservations {now : Time} {db : Db} {ls : List OrderLine}
    {as : List Allocation} {xs : List NewAllocation} {n : ℕ} (hls : ls ≠ [])
    (hres : Without .reserved as) (hcon : Without .consumed as)
    (hxs : Reservations now db ls none xs) : Secured ls (as ++ rowsOf n xs) where
  lines := hls
  durable a ha hst := by
    rcases List.mem_append.mp ha with ha | ha
    · exact absurd hst (hres a ha)
    · obtain ⟨x, hx, m, rfl⟩ := mem_rowsOf ha
      exact (hxs.ofLines x hx).2
  unpicked a ha := by
    rcases List.mem_append.mp ha with ha | ha
    · exact hcon a ha
    · obtain ⟨x, hx, m, rfl⟩ := mem_rowsOf ha
      exact fun h => by cases h
  covers l hl := by
    rw [unitsOf_append, unitsOf_eq_zero hres, unitsOf_rowsOf, Nat.zero_add]
    exact hxs.exact l hl

/-- Consuming what an order has reserved turns a secured order into a picked one. -/
theorem picked_of_secured {k : ℕ} {ls : List OrderLine} {as : List Allocation}
    (hk : ∀ a ∈ as, a.orderId = k) (h : Secured ls as) :
    Picked ls (as.map (fun a => if reservedOf k a then (setStatus .consumed).apply a else a)) where
  unreserved a ha := by
    obtain ⟨x, hx, rfl⟩ := List.mem_map.mp ha
    by_cases hr : reservedOf k x = true
    · rw [if_pos hr]; exact fun hc => by cases hc
    · rw [if_neg hr]
      exact fun hst => hr (reservedOf_iff.mpr ⟨hk x hx, hst⟩)
  covers l hl := by
    rw [← h.covers l hl]
    unfold unitsOf
    rw [List.map_map]
    refine congrArg List.sum (List.map_congr_left (fun a ha => ?_))
    have hcon := h.unpicked a ha
    -- A reserved allocation counts as consumed from now on; no other one was consumed.
    by_cases hr : a.status = .reserved
    · have hp : reservedOf k a = true := reservedOf_iff.mpr ⟨hk a ha, hr⟩
      simp [hp, hr, setStatus]
    · have hp : reservedOf k a = false := by simp [reservedOf, hr]
      simp [hp, hr, hcon]

/-- Cancelling what an order has reserved leaves nothing reserved. -/
theorem without_reserved_of_cancel {k : ℕ} {as : List Allocation}
    (hk : ∀ a ∈ as, a.orderId = k) :
    Without .reserved
      (as.map (fun a => if reservedOf k a then (setStatus .cancelled).apply a else a)) := by
  intro a ha
  obtain ⟨x, hx, rfl⟩ := List.mem_map.mp ha
  by_cases hr : reservedOf k x = true
  · rw [if_pos hr]; exact fun hc => by cases hc
  · rw [if_neg hr]
    exact fun hst => hr (reservedOf_iff.mpr ⟨hk x hx, hst⟩)

/-! ### Payments -/

/-- A business order has no payment attempts, whatever its status. -/
theorem PaymentOk.ofBusiness {o : Order} {ls : List OrderLine} {as : List Allocation}
    (h : o.channel = .business) : PaymentOk o ls as [] where
  onePending p hp := (List.not_mem_nil hp).elim
  oneSucceeded p hp := (List.not_mem_nil hp).elim
  paid hch := by rw [h] at hch; cases hch
  unpaid _ p hp := (List.not_mem_nil hp).elim
  amount p hp := (List.not_mem_nil hp).elim
  retail p hp := (List.not_mem_nil hp).elim
  total hch := by rw [h] at hch; cases hch
  held _ := fun ⟨p, hp, _⟩ => (List.not_mem_nil hp).elim

/-- A business order has no payment attempts. -/
theorem PaymentOk.attempts_of_business {o : Order} {ls : List OrderLine} {as : List Allocation}
    {ps : List PaymentAttempt} (h : PaymentOk o ls as ps) (hch : o.channel = .business) :
    ps = [] := by
  rw [List.eq_nil_iff_forall_not_mem]
  intro p hp
  have := h.retail p hp
  rw [hch] at this
  cases this

/-- An order that leaves DRAFT behind, and is sold only if it was sold before. -/
theorem PaymentOk.advance {o o' : Order} {ls : List OrderLine} {as as' : List Allocation}
    {ps : List PaymentAttempt} (h : PaymentOk o ls as ps) (hch : o'.channel = o.channel)
    (hsold : o'.status.Sold → o.status.Sold) (hdraft : o'.status ≠ .draft) :
    PaymentOk o' ls as' ps where
  onePending := h.onePending
  oneSucceeded := h.oneSucceeded
  paid hr hs := h.paid (hch.symm.trans hr) (hsold hs)
  unpaid hd := absurd hd hdraft
  amount := h.amount
  retail p hp := hch.trans (h.retail p hp)
  total hr := h.total (hch.symm.trans hr)
  held hd _ := absurd hd hdraft

namespace Inv

variable {now : Time} {db db₁ : Db}

/-- Time alone keeps the invariant. -/
theorem later {later : Time} (h : Inv now db) (hle : now ≤ later) : Inv later db :=
  ⟨h.stock.later hle, h.references, h.orders⟩

/-- A write on one order. -/
theorem ofTouches {k : ℕ} (h : Inv now db) (ht : Touches k db db₁) (hstock : NoOversell now db₁)
    (hk : ∀ o ∈ db₁.orders, o.pk = k → OrderOk db₁ o) : Inv now db₁ :=
  ⟨hstock, ht.references h.references, ht.orders h.orders hk⟩

/-- A write on one order that ends with saving the order row. -/
theorem saveOrder {o o' : Order} (h : Inv now db) (ho : o ∈ db.orders) (hpk : o'.pk = o.pk)
    (ht : Touches o.pk db db₁) (horders : db₁.orders = db.orders) (hstock : NoOversell now db₁)
    (hok : OrderOk db₁ o') : Inv now (db₁.saveOrder o') := by
  have hex : ∃ x ∈ db₁.orders, x.pk = o.pk := ⟨o, horders ▸ ho, rfl⟩
  refine h.ofTouches (ht.trans (Touches.saveOrder hpk hex)) (hstock.frame rfl rfl) ?_
  intro x hx hxk
  have hex' : ∃ y ∈ db₁.orders, Row.pk y = Row.pk o' := by
    obtain ⟨y, hy, hyk⟩ := hex
    exact ⟨y, hy, hyk.trans hpk.symm⟩
  rcases (Table.mem_put hex').mp hx with rfl | ⟨-, hne⟩
  · exact ⟨hok.stock, hok.payment⟩
  · exact absurd (hxk.trans hpk.symm) hne

/-! ### Placing business orders -/

/-- A business line is reserved without a deadline. -/
theorem reserveBusinessLine_reserves (rt : Runtime) :
    ReservesLine rt none (reserveBusinessLine rt) := by
  intro db line db' h
  unfold reserveBusinessLine at h
  simp only [bind_eq_ok, mapError_eq_ok] at h
  obtain ⟨product, -, offer, -, -, -, h⟩ := h
  exact ⟨_, fun b hb => (isOrderable_iff.mp (isOrderable_of_offer hb)).1, h⟩

/-- The business policy reserves every line of the order, durably. -/
theorem prepareBusiness_eq_ok {rt : Runtime} {db db' : Db} {o : Order}
    (h : prepareBusinessOrderForPlacement rt db o = .ok db') :
    o.channel = .business ∧ db.orderLines o.pk ≠ [] ∧
      ∃ xs, db' = db.withReservations xs
        ∧ Reservations rt.now db (db.orderLines o.pk) none xs := by
  unfold prepareBusinessOrderForPlacement at h
  simp only [bind_eq_ok, require_eq_ok, exists_const] at h
  obtain ⟨hch, hne, hloop⟩ := h
  exact ⟨hch, hne, reserveLines (reserveBusinessLine_reserves rt) (fun u hu => by cases hu)
    (db.lines.select_nodup_pk _) hloop⟩

/-- Reservations for the lines of an order touch that order only. -/
theorem touches_reservations {db : Db} {k : ℕ} {reservedUntil : Option Time}
    {xs : List NewAllocation} (hxs : Reservations now db (db.orderLines k) reservedUntil xs) :
    Touches k db (db.withReservations xs) := by
  refine Touches.withReservations (fun x hx => ?_)
  obtain ⟨hline, horder⟩ := Db.mem_orderLines.mp (hxs.ofLines x hx).1
  obtain ⟨b, hb, hpk, -, hprod⟩ := hxs.onActive x hx
  exact ⟨hline, horder, b, hb, hpk, hprod⟩

/-- The allocations of an order after its lines are reserved. -/
theorem orderAllocations_reservations {db : Db} {k : ℕ} {reservedUntil : Option Time}
    {xs : List NewAllocation} (hxs : Reservations now db (db.orderLines k) reservedUntil xs) :
    (db.withReservations xs).orderAllocations k
      = db.orderAllocations k ++ rowsOf db.allocations.next xs :=
  orderAllocations_withReservations (fun x hx =>
    (Db.mem_orderLines.mp (hxs.ofLines x hx).1).2)

/-- Placing a business draft keeps the invariant and leaves stock and payments alone. -/
theorem placeBusiness {rt : Runtime} {db db' : Db} {k : ℕ} {user : Option ℕ}
    (h : Inv rt.now db) (hok : Business.placeOrder rt db k user = .ok db') :
    Inv rt.now db' ∧ Quiet db db' := by
  obtain ⟨o, ho, rfl, hst, db₁, hprep, rfl⟩ := placeOrder_eq_ok.mp hok
  obtain ⟨hch, hne, xs, rfl, hxs⟩ := prepareBusiness_eq_ok hprep
  obtain ⟨hstock, hpay⟩ := h.orders o ho
  -- A business draft holds nothing, so all it reserves is new.
  have hnone : db.orderAllocations o.pk = [] := by
    unfold StockOk at hstock
    rw [hst] at hstock
    exact hstock.business hch
  refine ⟨?_, Quiet.withReservations.trans Quiet.saveOrder⟩
  refine h.saveOrder ho (by rfl) (touches_reservations hxs) rfl
    (h.stock.reserve (fun u hu => by cases hu) hxs) ⟨?_, ?_⟩
  · show Secured (db.orderLines o.pk) ((db.withReservations xs).orderAllocations o.pk)
    rw [orderAllocations_reservations hxs]
    exact secured_of_reservations hne (by simp [hnone, Without]) (by simp [hnone, Without]) hxs
  · show PaymentOk _ (db.orderLines o.pk) _ (db.orderAttempts o.pk)
    rw [hpay.attempts_of_business hch]
    exact PaymentOk.ofBusiness hch

/-! ### Editing placed orders -/

/-- The loop that groups lines by offer keeps them all. -/
theorem existingByOfferId_eq_ok {lines : List OrderLine} {existing : List (ℕ × OrderLine)}
    (h : existingByOfferId lines = .ok existing) :
    existing = lines.map (fun l => (l.commercialOfferId, l)) := by
  have key : ∀ (lines : List OrderLine) (seen existing : List (ℕ × OrderLine)),
      lines.foldlM addExisting seen = .ok existing →
      existing = seen ++ lines.map (fun l => (l.commercialOfferId, l)) := by
    intro lines
    -- By induction on the lines, with the offers seen so far.
    induction lines with
    | nil =>
      intro seen existing h
      simp only [List.foldlM_nil, pure_eq_ok] at h
      simp [h]
    | cons l ls ih =>
      intro seen existing h
      simp only [List.foldlM_cons, addExisting, bind_eq_ok, require_eq_ok, exists_const,
        pure_eq_ok] at h
      obtain ⟨seen', ⟨-, rfl⟩, hrest⟩ := h
      simpa using ih _ _ hrest
  simpa using key lines [] existing h

/-- What replacing the lines of an order writes: its lines, and no allocation but deletions. -/
structure Replaced (k : ℕ) (db db' : Db) : Prop where
  touches : Touches k db db'
  orders : db'.orders = db.orders
  batches : db'.batches = db.batches
  attempts : db'.paymentAttempts = db.paymentAttempts
  allocations : ∃ p, db'.allocations = db.allocations.delete p

/-- The lines an edit keeps are versions of lines of the order. -/
theorem resized_of_retained {db : Db} {k : ℕ} {incoming : List (ℕ × ResolvedOrderLine)}
    {existing : List (ℕ × OrderLine)} {retained : List OrderLine}
    (hex : ∀ e ∈ existing, e.2 ∈ db.orderLines k)
    (hret : (incoming.filterMap (fun e =>
      (existing.lookup e.1).map (fun line => (line, e.2.quantityInUnits)))).mapM
        (fun e => e.1.resize e.2) = .ok retained) :
    ∀ l ∈ retained, Touches.Resized k db.lines l := by
  intro l hl
  obtain ⟨e, he, hel⟩ := exists_of_mem_mapM hret hl
  obtain ⟨i, -, hi⟩ := List.mem_filterMap.mp he
  obtain ⟨x, hx, rfl⟩ := Option.map_eq_some_iff.mp hi
  obtain ⟨-, rfl⟩ := OrderLine.resize_eq_ok.mp hel
  have hmem : (i.1, x) ∈ existing := by
    obtain ⟨pre, post, hsplit, -⟩ := List.lookup_eq_some_iff.mp hx
    rw [hsplit]; simp
  obtain ⟨hx, hxk⟩ := Db.mem_orderLines.mp (hex _ hmem)
  exact ⟨hxk, x, hx, rfl, hxk, rfl⟩

/-- The lines an edit removes are lines of the order. -/
theorem own_of_removed {db db₁ : Db} {k : ℕ} {removed : List (ℕ × OrderLine)}
    (hput : Touches k db db₁) (hex : ∀ e ∈ removed, e.2 ∈ db.orderLines k) :
    ∀ l ∈ db₁.lines, l.pk ∈ removed.map (fun e => e.2.pk) → l.orderId = k := by
  intro l hl hmem
  obtain ⟨e, he, hpk⟩ := List.mem_map.mp hmem
  obtain ⟨hx, hxk⟩ := Db.mem_orderLines.mp (hex e he)
  by_contra hne
  -- a line of another order is still there as it was, and keys are unique
  have hother : l ∈ db.orderLines l.orderId := by
    rw [← hput.lines l.orderId hne]
    exact Db.mem_orderLines.mpr ⟨hl, rfl⟩
  have hl' := (Db.mem_orderLines.mp hother).1
  have heq : e.2 = l := Table.eq_of_pk_eq hx hl' hpk
  exact hne (by rw [← heq]; exact hxk)

/-- Replacing lines leaves an order with its lines replaced. -/
theorem replaceLines_eq_ok {db db' : Db} {o : Order} {incoming : List (ℕ × ResolvedOrderLine)}
    {existing : List (ℕ × OrderLine)} (hrefs : References db) (ho : o ∈ db.orders)
    (hex : ∀ e ∈ existing, e.2 ∈ db.orderLines o.pk)
    (h : replaceLines db o incoming existing = .ok db') : Replaced o.pk db db' := by
  unfold replaceLines at h
  simp only [bind_eq_ok] at h
  obtain ⟨retained, hret, h⟩ := h
  obtain ⟨xs, hxs, rfl⟩ := createOrderLines_eq_ok h
  have hput := Touches.putLines (resized_of_retained hex hret)
  have hremoved : ∀ e ∈ existing.filter (fun e => (incoming.lookup e.1).isNone),
      e.2 ∈ db.orderLines o.pk := fun e he => hex e (List.mem_filter.mp he).1
  have hdel := Touches.deleteLines (hput.references hrefs) (own_of_removed hput hremoved)
  exact ⟨(hput.trans hdel).trans (Touches.insertLines hxs ⟨o, ho, rfl⟩), rfl, rfl, rfl, _, rfl⟩

/-- Editing a placed order keeps the invariant and leaves stock and payments alone. -/
theorem updatePlaced {rt : Runtime} {db db' : Db} {k : ℕ} {lines : List ResolvedOrderLine}
    {user : Option ℕ} (h : Inv rt.now db)
    (hok : SwedeSweets.updatePlacedOrder rt db k lines clearOrderReservationsBeforeLineReplacement
      (prepareBusinessOrderForPlacement rt) user = .ok db') :
    Inv rt.now db' ∧ Quiet db db' := by
  obtain ⟨o, ho, rfl, hst, incoming, existing, -, hexist, db₁, db₂, db₃, hclear, hrep, hprep,
    rfl⟩ := updatePlacedOrder_eq_ok hok
  simp only [clearOrderReservationsBeforeLineReplacement, pure_eq_ok] at hclear
  subst hclear
  -- clear: the reserved rows of the order are gone
  have htouch₁ : Touches o.pk db (deleteReservationsForOrder db o.pk) :=
    Touches.deleteAllocations (fun a ha => (reservedOf_iff.mp ha).1)
  have hexist' := existingByOfferId_eq_ok hexist
  have hR : Replaced o.pk (deleteReservationsForOrder db o.pk) db₂ :=
    replaceLines_eq_ok (htouch₁.references h.references) ho (fun e he => by
      rw [hexist'] at he
      obtain ⟨l, hl, rfl⟩ := List.mem_map.mp he
      exact hl) hrep
  obtain ⟨hch, hne, xs, rfl, hxs⟩ := prepareBusiness_eq_ok hprep
  obtain ⟨hstock, hpay⟩ := h.orders o ho
  obtain ⟨p, hp⟩ := hR.allocations
  have hstock₂ : NoOversell rt.now db₂ := by
    have hdel : NoOversell rt.now { deleteReservationsForOrder db o.pk with
        allocations := (deleteReservationsForOrder db o.pk).allocations.delete p } :=
      NoOversell.delete (h.stock.delete (p := reservedOf o.pk))
    exact hdel.frame hR.batches hp
  -- what is left of the order's allocations was neither reserved nor consumed
  have hleft : ∀ a ∈ db₂.orderAllocations o.pk,
      a ∈ db.orderAllocations o.pk ∧ a.status ≠ .reserved := by
    intro a ha
    obtain ⟨ha, hak⟩ := Db.mem_orderAllocations.mp ha
    rw [hp] at ha
    obtain ⟨ha, hres⟩ := Table.mem_delete.mp (Table.mem_delete.mp ha).1
    refine ⟨Db.mem_orderAllocations.mpr ⟨ha, hak⟩, fun hst => ?_⟩
    rw [reservedOf_iff.mpr ⟨hak, hst⟩] at hres
    cases hres
  have hsecured : Secured (db.orderLines o.pk) (db.orderAllocations o.pk) := by
    unfold StockOk at hstock
    rwa [hst] at hstock
  have hcleared : Quiet db (deleteReservationsForOrder db o.pk) :=
    Quiet.delete (p := reservedOf o.pk) rfl rfl rfl
  have hquiet : Quiet db db₂ := hcleared.trans (Quiet.delete hR.batches hp hR.attempts)
  refine ⟨?_, (hquiet.trans Quiet.withReservations).trans Quiet.saveOrder⟩
  refine h.saveOrder ho (by rfl) ((htouch₁.trans hR.touches).trans (touches_reservations hxs))
    hR.orders (hstock₂.reserve (fun u hu => by cases hu) hxs) ⟨?_, ?_⟩
  · show StockOk (o.markAsEdited rt user) (db₂.orderLines o.pk)
      ((db₂.withReservations xs).orderAllocations o.pk)
    have hst' : (o.markAsEdited rt user).status = .placed := hst
    unfold StockOk
    rw [hst', orderAllocations_reservations hxs]
    exact secured_of_reservations hne (fun a ha => (hleft a ha).2)
      (fun a ha => hsecured.unpicked a (hleft a ha).1) hxs
  · show PaymentOk _ (db₂.orderLines o.pk) _ (db₂.orderAttempts o.pk)
    have hnil : db₂.orderAttempts o.pk = [] := by
      unfold Db.orderAttempts
      rw [hR.attempts]
      exact hpay.attempts_of_business hch
    rw [hnil]
    exact PaymentOk.ofBusiness hch

/-! ### New orders and draft lines -/

/-- A business draft without allocations and attempts. -/
theorem OrderOk.businessDraft {db : Db} {o : Order} (hch : o.channel = .business)
    (hst : o.status = .draft) (has : db.orderAllocations o.pk = [])
    (hps : db.orderAttempts o.pk = []) : OrderOk db o := by
  constructor
  · unfold StockOk
    rw [hst, has]
    exact ⟨fun _ => rfl, fun a ha => (List.not_mem_nil ha).elim,
      Or.inl (fun a ha => (List.not_mem_nil ha).elim)⟩
  · rw [hps]
    exact PaymentOk.ofBusiness hch

/-- What inserting an order writes. -/
theorem insertOrder_eq_ok {rt : Runtime} {db : Db} {channel : Channel} {currency : Currency}
    {customer : Option ℕ} {r : Db × Order}
    (h : insertOrder rt db channel currency customer = .ok r) :
    r = ({ db with orders := db.orders.insert (newOrder rt channel currency customer) },
      (newOrder rt channel currency customer).make db.orders.next) := by
  unfold insertOrder at h
  by_cases hch : channel = .business
  · simp only [hch, if_true, bind_eq_ok, pure_eq_ok] at h
    obtain ⟨-, -, -, -, rfl⟩ := h
    rw [hch]
  · simp only [hch, if_false, pure_eq_ok] at h
    exact h.symm

/-- The new order is the only one under its key. -/
theorem mem_insertOrder {db : Db} {d : NewRow Order} {x : Order} (hx : x ∈ db.orders.insert d)
    (hpk : x.pk = db.orders.next) : x = d.make db.orders.next := by
  rcases Table.mem_insert.mp hx with hx | rfl
  · exact absurd hpk (Nat.ne_of_lt (db.orders.bounded x hx))
  · rfl

/-- The next key is no order's. -/
theorem fresh_next {db : Db} : ∀ o ∈ db.orders, o.pk ≠ db.orders.next :=
  fun o ho => Nat.ne_of_lt (db.orders.bounded o ho)

/-- A new business draft, with or without lines. -/
theorem newBusinessDraft {rt : Runtime} {customer : Option ℕ} {currency : Currency}
    (h : Inv now db) (xs : List NewOrderLine) (hxs : ∀ x ∈ xs, x.orderId = db.orders.next) :
    Inv now { db with
      orders := db.orders.insert (newOrder rt .business currency customer)
      lines := db.lines.insertAll (xs.map NewOrderLine.row) } := by
  have hnew : ((newOrder rt .business currency customer).make db.orders.next).pk
      = db.orders.next := rfl
  obtain ⟨-, hallocs, hattempts⟩ := h.references.fresh fresh_next
  refine h.ofTouches (k := db.orders.next)
    ((Touches.insertOrder rfl).trans (Touches.insertLines hxs
      ⟨_, Table.mem_insert.mpr (Or.inr rfl), hnew⟩)) (h.stock.frame rfl rfl) ?_
  intro o ho hpk
  -- The only order with the new key is the new one.
  have heq := mem_insertOrder ho hpk
  refine OrderOk.businessDraft ?_ ?_ ?_ ?_
  · rw [heq]; rfl
  · rw [heq]; rfl
  · rw [hpk]; exact hallocs
  · rw [hpk]; exact hattempts

/-- **Creating a business draft.** -/
theorem createDraft {rt : Runtime} {db : Db} {draft : OrderDraft} {r : Db × Order}
    (h : Inv now db) (hch : draft.channel = .business)
    (hok : SwedeSweets.createDraftOrder rt db draft = .ok r) :
    Inv now r.1 ∧ Quiet db r.1 := by
  unfold SwedeSweets.createDraftOrder at hok
  simp only [bind_eq_ok, require_eq_ok, exists_const, pure_eq_ok] at hok
  obtain ⟨-, ⟨db₁, o⟩, hins, db₂, hlines, rfl⟩ := hok
  have heq := insertOrder_eq_ok hins
  rw [Prod.mk.injEq] at heq
  obtain ⟨rfl, rfl⟩ := heq
  obtain ⟨xs, hxs, rfl⟩ := createOrderLines_eq_ok hlines
  rw [hch]
  exact ⟨newBusinessDraft h xs hxs, Quiet.frame rfl rfl rfl⟩

/-- **Opening a customer's draft.** -/
theorem getOrCreateDraft {rt : Runtime} {db : Db} {customer : ℕ} {r : Db × Order}
    (h : Inv now db) (hok : Business.getOrCreateCustomerDraftOrder rt db customer = .ok r) :
    Inv now r.1 ∧ Quiet db r.1 := by
  unfold Business.getOrCreateCustomerDraftOrder at hok
  split at hok
  · rw [pure_eq_ok] at hok
    subst hok
    exact ⟨h, Quiet.refl _⟩
  · rw [insertOrder_eq_ok hok]
    exact ⟨newBusinessDraft h [] (by simp), Quiet.frame rfl rfl rfl⟩

/-- Placing a business order right after creating its draft. -/
theorem createAndPlace {rt : Runtime} {db db' : Db} {draft : OrderDraft} {user : Option ℕ}
    {r : Db × Order} (h : Inv rt.now db) (hch : draft.channel = .business)
    (hdraft : SwedeSweets.createDraftOrder rt db draft = .ok r)
    (hplace : Business.placeOrder rt r.1 r.2.pk user = .ok db') :
    Inv rt.now db' ∧ Quiet db db' := by
  obtain ⟨hinv, hquiet⟩ := h.createDraft hch hdraft
  obtain ⟨hinv', hquiet'⟩ := hinv.placeBusiness hplace
  exact ⟨hinv', hquiet.trans hquiet'⟩

/-- Editing the lines of a business draft. -/
theorem editBusinessDraft {db db' : Db} {o : Order} (h : Inv now db) (ho : o ∈ db.orders)
    (hch : o.channel = .business) (hst : o.status = .draft) (ht : Touches o.pk db db')
    (horders : db'.orders = db.orders) (hattempts : db'.paymentAttempts = db.paymentAttempts)
    (hstock : NoOversell now db')
    (hallocs : ∀ a ∈ db'.orderAllocations o.pk, a ∈ db.orderAllocations o.pk) : Inv now db' := by
  obtain ⟨hstockOk, hpay⟩ := h.orders o ho
  -- A business draft holds nothing, before and after.
  have hnone : db.orderAllocations o.pk = [] := by
    unfold StockOk at hstockOk
    rw [hst] at hstockOk
    exact hstockOk.business hch
  refine h.ofTouches ht hstock (fun x hx hpk => ?_)
  have hxo : x = o := Table.eq_of_pk_eq (t := db.orders) (horders ▸ hx) ho hpk
  subst hxo
  refine OrderOk.businessDraft hch hst ?_ ?_
  · rw [List.eq_nil_iff_forall_not_mem]
    intro a ha
    have hmem := hallocs a ha
    rw [hnone] at hmem
    cases hmem
  · unfold Db.orderAttempts
    rw [hattempts]
    exact hpay.attempts_of_business hch

/-- The order that passes is a BUSINESS order. -/
theorem requireBusinessOrder_eq_ok {db : Db} {k : ℕ} {u : Unit}
    (h : Business.requireBusinessOrder db k = .ok u) :
    ∀ o ∈ db.orders, o.pk = k → o.channel = .business := by
  unfold Business.requireBusinessOrder at h
  simp only [bind_eq_ok, Db.getOrder_eq_ok, require_eq_ok] at h
  obtain ⟨o, ⟨ho, hpk⟩, hch⟩ := h
  intro o' ho' hpk'
  rw [Table.eq_of_pk_eq (t := db.orders) ho' ho (hpk'.trans hpk.symm)]
  exact hch

/-- **Adding a draft line.** -/
theorem addDraftLine {db db' : Db} {k : ℕ} {line : ResolvedOrderLine} (h : Inv now db)
    (hbus : ∀ o ∈ db.orders, o.pk = k → o.channel = .business)
    (hok : addDraftOrderLine db k line = .ok db') : Inv now db' ∧ Quiet db db' := by
  unfold addDraftOrderLine requireDraftForEdit at hok
  simp only [lockedOrder_eq_ok, requireStatus_eq_ok, bind_eq_ok, pure_eq_ok] at hok
  obtain ⟨o, ho, rfl, hst, -, -, -, -, x, hx, rfl⟩ := hok
  have hline := (newOrderLine_of hx).order
  refine ⟨?_, Quiet.frame rfl rfl rfl⟩
  refine h.editBusinessDraft ho (hbus o ho rfl) hst
    (Touches.insertLines (List.forall_mem_singleton.mpr hline) ⟨o, ho, rfl⟩) rfl rfl
    (h.stock.frame rfl rfl) (fun a ha => ha)

/-- **Changing a draft line's quantity.** -/
theorem setDraftLine {db db' : Db} {k lineId : ℕ} {quantity : ℤ} (h : Inv now db)
    (hbus : ∀ o ∈ db.orders, o.pk = k → o.channel = .business)
    (hok : setDraftOrderLineQuantity db k lineId quantity = .ok db') :
    Inv now db' ∧ Quiet db db' := by
  unfold setDraftOrderLineQuantity requireDraftForEdit at hok
  simp only [lockedOrder_eq_ok, requireStatus_eq_ok, bind_eq_ok, pure_eq_ok] at hok
  obtain ⟨o, ho, rfl, hst, -, -, l, hl, l', hl', rfl⟩ := hok
  obtain ⟨hmem, -⟩ := findOrderLine_eq_ok hl
  obtain ⟨hline, horder⟩ := Db.mem_orderLines.mp hmem
  obtain ⟨-, rfl⟩ := OrderLine.resize_eq_ok.mp hl'
  refine ⟨?_, Quiet.frame rfl rfl rfl⟩
  exact h.editBusinessDraft ho (hbus o ho rfl) hst
    (Touches.putLine ⟨horder, l, hline, rfl, horder, rfl⟩) rfl rfl
    (h.stock.frame rfl rfl) (fun a ha => ha)

/-- **Removing a draft line.** -/
theorem removeDraftLine {db db' : Db} {k lineId : ℕ} (h : Inv now db)
    (hbus : ∀ o ∈ db.orders, o.pk = k → o.channel = .business)
    (hok : removeDraftOrderLine db k lineId = .ok db') :
    Inv now db' ∧ Quiet db db' := by
  unfold removeDraftOrderLine requireDraftForEdit at hok
  simp only [lockedOrder_eq_ok, requireStatus_eq_ok, bind_eq_ok, pure_eq_ok] at hok
  obtain ⟨o, ho, rfl, hst, l, hl, rfl⟩ := hok
  obtain ⟨hmem, -⟩ := findOrderLine_eq_ok hl
  obtain ⟨hline, horder⟩ := Db.mem_orderLines.mp hmem
  refine ⟨?_, Quiet.delete rfl rfl rfl⟩
  refine h.editBusinessDraft ho (hbus o ho rfl) hst
    (Touches.deleteLines h.references (fun l' hl' hpk => ?_)) rfl rfl ?_ (fun a ha => ?_)
  -- The deleted lines are this one: keys are unique.
  · have heq : l' = l := Table.eq_of_pk_eq (t := db.lines) hl' hline (by simpa using hpk)
    rw [heq]
    exact horder
  · exact (h.stock.delete (p := fun a => [l.pk].contains a.orderLineId)).frame rfl rfl
  · obtain ⟨ha, hak⟩ := Db.mem_orderAllocations.mp ha
    exact Db.mem_orderAllocations.mpr ⟨(Table.mem_delete.mp ha).1, hak⟩

/-! ### Fulfillment -/

/-- The reservations of a placed order are durable, so they are active at every time. -/
theorem active_of_placed {o : Order} (h : Inv now db) (ho : o ∈ db.orders)
    (hst : o.status = .placed) (t : Time) :
    ∀ a ∈ db.allocations, reservedOf o.pk a = true → a.isActive t = true := by
  intro a ha hr
  obtain ⟨hak, hres⟩ := reservedOf_iff.mp hr
  have hstock := (h.orders o ho).stock
  unfold StockOk at hstock
  rw [hst] at hstock
  have hnone := hstock.durable a (Db.mem_orderAllocations.mpr ⟨ha, hak⟩) hres
  simp [Allocation.isActive, hres, hnone]

/-- A placed order has something reserved. -/
theorem reserved_of_placed {o : Order} (h : Inv now db) (ho : o ∈ db.orders)
    (hst : o.status = .placed) : ∃ a ∈ db.allocations, reservedOf o.pk a = true := by
  have hstock := (h.orders o ho).stock
  unfold StockOk at hstock
  rw [hst] at hstock
  obtain ⟨l, hl⟩ := List.exists_mem_of_ne_nil _ hstock.lines
  have hunits := hstock.covers l hl
  have hpos := l.quantity_pos
  -- A PLACED order has a line, and its units are all reserved.
  have hne : unitsOf (db.orderAllocations o.pk) .reserved l.pk ≠ 0 := by omega
  unfold unitsOf at hne
  rw [ne_eq, List.sum_eq_zero_iff] at hne
  push Not at hne
  obtain ⟨v, hv, hv0⟩ := hne
  obtain ⟨a, ha, rfl⟩ := List.mem_map.mp hv
  obtain ⟨hmem, hak⟩ := Db.mem_orderAllocations.mp ha
  have hres : a.status = .reserved := by
    by_contra hst
    exact hv0 (if_neg (fun hc => hst hc.2))
  exact ⟨a, hmem, reservedOf_iff.mpr ⟨hak, hres⟩⟩

/-- What packing a PLACED order writes. -/
theorem packOrder_fulfillment_eq_ok {rt : Runtime} {db db' : Db} {k : ℕ} {user : Option ℕ} :
    Fulfillment.packOrder rt db k user = .ok db' ↔
      ∃ o ∈ db.orders, o.pk = k ∧ o.status = .placed ∧
        consumeReservationsForOrder rt db k = .ok (db.consumed k) ∧
        db' = (db.consumed k).saveOrder
          { o with status := .packed, packedAt := some rt.now, packedBy := user } := by
  unfold Fulfillment.packOrder consumeOrderReservationsBeforePacking
  rw [packOrder_eq_ok]
  constructor
  · rintro ⟨o, ho, rfl, hst, db₁, hprep, rfl⟩
    rw [mapError_eq_ok] at hprep
    obtain ⟨-, -, rfl⟩ := consumeReservationsForOrder_eq_ok.mp hprep
    exact ⟨o, ho, rfl, hst, hprep, rfl⟩
  · rintro ⟨o, ho, rfl, hst, hprep, rfl⟩
    exact ⟨o, ho, rfl, hst, _, mapError_eq_ok.mpr hprep, rfl⟩

/-- **Packing goes through.** A placed order can always be packed. -/
theorem pack_ok {rt : Runtime} {o : Order} (h : Inv rt.now db)
    (hcolumn : ∀ b ∈ db.batches, b.quantity ≤ maxInteger) (ho : o ∈ db.orders)
    (hst : o.status = .placed) (user : Option ℕ) :
    Fulfillment.packOrder rt db o.pk user = .ok ((db.consumed o.pk).saveOrder
      { o with status := .packed, packedAt := some rt.now, packedBy := user }) := by
  refine packOrder_fulfillment_eq_ok.mpr ⟨o, ho, rfl, hst, ?_, rfl⟩
  exact h.stock.consume_ok (h.reserved_of_placed ho hst) (h.active_of_placed ho hst rt.now)
    h.references.batch hcolumn

/-- Consuming an order's reservations touches its own rows and the quantities of batches. -/
theorem touches_consumed (db : Db) (k : ℕ) : Touches k db (db.consumed k) := by
  have hallocs : Touches k db
      { db with allocations := db.allocations.modify (reservedOf k) (setStatus .consumed) } :=
    Touches.modifyAllocations (fun a _ ha => (reservedOf_iff.mp ha).1) (setStatus_keeps _)
  refine hallocs.trans (Touches.batches (fun b hb => ?_))
  refine ⟨_, Table.mem_modify.mpr ⟨b, hb, rfl⟩, ?_⟩
  by_cases hpos : decide (0 < db.reservedBy k b.pk) = true
  · rw [if_pos hpos]; exact ⟨rfl, rfl⟩
  · rw [if_neg hpos]; exact ⟨rfl, rfl⟩

/-- Packing keeps the invariant. -/
theorem pack {rt : Runtime} {db db' : Db} {k : ℕ} {user : Option ℕ} (h : Inv rt.now db)
    (hok : Fulfillment.packOrder rt db k user = .ok db') : Inv rt.now db' := by
  obtain ⟨o, ho, rfl, hst, -, rfl⟩ := packOrder_fulfillment_eq_ok.mp hok
  obtain ⟨hstock, hpay⟩ := h.orders o ho
  have hsecured : Secured (db.orderLines o.pk) (db.orderAllocations o.pk) := by
    unfold StockOk at hstock
    rwa [hst] at hstock
  refine h.saveOrder ho (by rfl) (touches_consumed db o.pk) rfl
    (h.stock.consume (h.active_of_placed ho hst rt.now)) ⟨?_, ?_⟩
  · show Picked (db.orderLines o.pk) ((db.consumed o.pk).orderAllocations o.pk)
    -- The order's allocations after the packing: its reserved ones are consumed.
    have hview : (db.consumed o.pk).orderAllocations o.pk = (db.orderAllocations o.pk).map
        (fun a => if reservedOf o.pk a then (setStatus .consumed).apply a else a) :=
      orderAllocations_modify (fun a => rfl) o.pk
    rw [hview]
    exact picked_of_secured (fun a ha => (Db.mem_orderAllocations.mp ha).2) hsecured
  · exact hpay.advance rfl (fun _ => Or.inl hst) (by simp)

/-- Cancelling keeps the invariant and leaves stock and payments alone. -/
theorem cancel {rt : Runtime} {db db' : Db} {k : ℕ} {user : Option ℕ} {reason note : String}
    (h : Inv rt.now db)
    (hok : Fulfillment.cancelOrder rt db k user reason note = .ok db') :
    Inv rt.now db' ∧ Quiet db db' := by
  unfold Fulfillment.cancelOrder releaseOrderReservationsBeforeCancellation at hok
  obtain ⟨o, ho, rfl, hst, db₁, hprep, -, -, rfl⟩ := cancelOrder_eq_ok.mp hok
  rw [cancelReservationsForOrder_eq, Except.ok.injEq] at hprep
  subst hprep
  refine ⟨?_, (Quiet.modify (fun a _ h => by cases h)).trans Quiet.saveOrder⟩
  refine h.saveOrder ho (by rfl)
    (Touches.modifyAllocations (fun a _ ha => (reservedOf_iff.mp ha).1) (setStatus_keeps _)) rfl
    (h.stock.setStatus (by simp)) ⟨?_, ?_⟩
  · show Without .reserved ((db.released o.pk).orderAllocations o.pk)
    -- The order's allocations after the cancellation: none is reserved.
    have hview : (db.released o.pk).orderAllocations o.pk = (db.orderAllocations o.pk).map
        (fun a => if reservedOf o.pk a then (setStatus .cancelled).apply a else a) :=
      orderAllocations_modify (fun _ => rfl) o.pk
    rw [hview]
    exact without_reserved_of_cancel (fun a ha => (Db.mem_orderAllocations.mp ha).2)
  · exact (h.orders o ho).payment.advance rfl
      (fun hs => by rcases hs with hs | hs | hs <;> cases hs) (by simp)

/-- Delivering keeps the invariant and leaves stock and payments alone. -/
theorem deliver {rt : Runtime} {db db' : Db} {k : ℕ} {user : Option ℕ} (h : Inv rt.now db)
    (hok : SwedeSweets.deliverOrder rt db k user = .ok db') :
    Inv rt.now db' ∧ Quiet db db' := by
  obtain ⟨o, ho, rfl, hst, rfl⟩ := deliverOrder_eq_ok.mp hok
  obtain ⟨hstock, hpay⟩ := h.orders o ho
  have hpicked : Picked (db.orderLines o.pk) (db.orderAllocations o.pk) := by
    unfold StockOk at hstock
    rcases hst with hst | hst <;> rwa [hst] at hstock
  refine ⟨?_, Quiet.saveOrder⟩
  refine h.saveOrder ho (by rfl) (Touches.refl _ _) rfl h.stock ⟨hpicked, ?_⟩
  exact hpay.advance rfl (fun _ => Or.inr hst) (by simp)

end Inv

end SwedeSweets
