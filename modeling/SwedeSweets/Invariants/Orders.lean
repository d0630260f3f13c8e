import SwedeSweets.Orders.Services
import SwedeSweets.Reservations.Lines
import SwedeSweets.Retail.Services

namespace SwedeSweets

open Relational Fallible

/-!
# What holds of every order

* `References` — the foreign keys resolve, and an allocation sits on a batch of its line's
  product;
* `StockOk` — the allocations of an order fit its status: a placed order is covered
  durably and exactly, a packed one was picked exactly, a draft holds stock for a payment
  or not at all;
* `PaymentOk` — the payment attempts of an order fit its status and its total.

The last two speak about one order and what hangs on it.  A write on the order `k` leaves
every other order as it was (`Touches k`), so each operation only has to look at its own.
-/

/-- The foreign keys between orders, lines, allocations, batches and attempts. -/
structure References (db : Db) : Prop where
  line : ∀ l ∈ db.lines, ∃ o ∈ db.orders, o.pk = l.orderId
  allocation : ∀ a ∈ db.allocations,
    (∃ l ∈ db.lines, l.pk = a.orderLineId ∧ l.orderId = a.orderId
      ∧ ∃ b ∈ db.batches, b.pk = a.batchId ∧ b.productId = l.productId)
  attempt : ∀ p ∈ db.paymentAttempts, ∃ o ∈ db.orders, o.pk = p.orderId

/-- Every allocation is on a batch on file. -/
theorem References.batch {db : Db} (h : References db) :
    ∀ a ∈ db.allocations, ∃ b ∈ db.batches, b.pk = a.batchId := by
  intro a ha
  obtain ⟨-, -, -, -, b, hb, hpk, -⟩ := h.allocation a ha
  exact ⟨b, hb, hpk⟩

/-! ### Stock of one order -/

/-- The units of a line among some allocations, counting those in one status. -/
def unitsOf (as : List Allocation) (status : AllocationStatus) (linePk : ℕ) : ℕ :=
  (as.map (fun a => if a.orderLineId = linePk ∧ a.status = status then a.quantity else 0)).sum

/-- The allocations in a status sum to exactly the quantity of every line. -/
def Covers (status : AllocationStatus) (ls : List OrderLine) (as : List Allocation) : Prop :=
  ∀ l ∈ ls, unitsOf as status l.pk = l.quantityInUnits

/-- No allocation has the status. -/
def Without (status : AllocationStatus) (as : List Allocation) : Prop :=
  ∀ a ∈ as, a.status ≠ status

/-- Stock held for a payment: every line is covered, up to one common deadline. -/
structure Held (ls : List OrderLine) (as : List Allocation) (deadline : Time) : Prop where
  deadline : ∀ a ∈ as, a.status = .reserved → a.reservedUntil = some deadline
  covers : Covers .reserved ls as

/-- Stock of a placed order: every line is covered, durably. -/
structure Secured (ls : List OrderLine) (as : List Allocation) : Prop where
  lines : ls ≠ []
  durable : ∀ a ∈ as, a.status = .reserved → a.reservedUntil = none
  unpicked : Without .consumed as
  covers : Covers .reserved ls as

/-- Stock of a packed order: every line was picked exactly, nothing is reserved any more. -/
structure Picked (ls : List OrderLine) (as : List Allocation) : Prop where
  unreserved : Without .reserved as
  covers : Covers .consumed ls as

/-- Stock of a draft: none for a business draft, held for a payment or free for a retail
    draft. -/
structure Drafted (channel : Channel) (ls : List OrderLine) (as : List Allocation) : Prop where
  business : channel = .business → as = []
  unpicked : Without .consumed as
  held : Without .reserved as ∨ ∃ deadline, Held ls as deadline

/-- The allocations of an order fit its status. -/
def StockOk (o : Order) (ls : List OrderLine) (as : List Allocation) : Prop :=
  match o.status with
  | .draft => Drafted o.channel ls as
  | .placed => Secured ls as
  | .packed => Picked ls as
  | .delivered => Picked ls as
  | .cancelled => Without .reserved as

/-! ### Payments of one order -/

/-- PLACED, PACKED or DELIVERED. -/
def OrderStatus.Sold (status : OrderStatus) : Prop :=
  status = .placed ∨ status = .packed ∨ status = .delivered

/-- The payment attempts of an order fit its status and its total. -/
structure PaymentOk (o : Order) (ls : List OrderLine) (as : List Allocation)
    (ps : List PaymentAttempt) : Prop where
  onePending : ∀ p ∈ ps, ∀ q ∈ ps, p.status = .pending → q.status = .pending → p = q
  oneSucceeded : ∀ p ∈ ps, ∀ q ∈ ps, p.status = .succeeded → q.status = .succeeded → p = q
  paid : o.channel = .retail → o.status.Sold → ∃ p ∈ ps, p.status = .succeeded
  unpaid : o.status = .draft → ∀ p ∈ ps, p.status ≠ .succeeded
  amount : ∀ p ∈ ps, orderTotal ls = some p.amount
  retail : ∀ p ∈ ps, o.channel = .retail
  total : o.channel = .retail → ∃ t, orderTotal ls = some t ∧ 0 < t ∧ t ≤ maxRetailOrderTotal
  held : o.status = .draft → (∃ p ∈ ps, p.status = .pending) → ∃ a ∈ as, a.status = .reserved

/-- Everything that is kept about one order. -/
structure OrderOk (db : Db) (o : Order) : Prop where
  stock : StockOk o (db.orderLines o.pk) (db.orderAllocations o.pk)
  payment : PaymentOk o (db.orderLines o.pk) (db.orderAllocations o.pk) (db.orderAttempts o.pk)

/-! ### Writes that leave the stock alone -/

/-- A write that changes no batch and consumes no reservation. -/
structure StockQuiet (db db' : Db) : Prop where
  batches : db'.batches = db.batches
  consumed : ∀ a ∈ db'.allocations, a.status = .consumed → a ∈ db.allocations

/-- A write that leaves the stock and the payment attempts alone. -/
structure Quiet (db db' : Db) : Prop extends StockQuiet db db' where
  attempts : db'.paymentAttempts = db.paymentAttempts

namespace Quiet

variable {db db₁ db₂ : Db}

/-- Nothing happened. -/
theorem refl (db : Db) : Quiet db db := ⟨⟨rfl, fun _ ha _ => ha⟩, rfl⟩

/-- Quiet steps compose. -/
theorem trans (h : Quiet db db₁) (h' : Quiet db₁ db₂) : Quiet db db₂ where
  batches := h'.batches.trans h.batches
  consumed a ha hst := h.consumed a (h'.consumed a ha hst) hst
  attempts := h'.attempts.trans h.attempts

/-- A write on orders, lines or checkouts. -/
theorem frame (hb : db₁.batches = db.batches) (ha : db₁.allocations = db.allocations)
    (hp : db₁.paymentAttempts = db.paymentAttempts) : Quiet db db₁ :=
  ⟨⟨hb, fun _ hmem _ => ha ▸ hmem⟩, hp⟩

/-- Deleting allocations is quiet. -/
theorem delete {p : Allocation → Bool} (hb : db₁.batches = db.batches)
    (ha : db₁.allocations = db.allocations.delete p)
    (hp : db₁.paymentAttempts = db.paymentAttempts) : Quiet db db₁ :=
  ⟨⟨hb, fun _ hmem _ => (Table.mem_delete.mp (ha ▸ hmem)).1⟩, hp⟩

/-- A rewrite that does not consume, of rows that are not consumed. -/
theorem modify {p : Allocation → Bool} {u : Edit Allocation}
    (hu : ∀ a, p a = true → (u.apply a).status ≠ .consumed) :
    Quiet db { db with allocations := db.allocations.modify p u } := by
  refine ⟨⟨rfl, fun a hmem hst => ?_⟩, rfl⟩
  obtain ⟨x, hx, rfl⟩ := Table.mem_modify.mp hmem
  by_cases hp : p x = true
  · rw [if_pos hp] at hst
    exact absurd hst (hu x hp)
  · rw [if_neg hp]; exact hx

/-- Reserving is quiet: new allocations are not consumed. -/
theorem withReservations {xs : List NewAllocation} : Quiet db (db.withReservations xs) := by
  refine ⟨⟨rfl, fun a hmem hst => ?_⟩, rfl⟩
  rcases Table.mem_insertAll.mp hmem with hmem | hmem
  · exact hmem
  · obtain ⟨x, -, n, rfl⟩ := Table.mem_made_map hmem
    cases hst

/-- Saving an order is quiet. -/
theorem saveOrder {o : Order} : Quiet db (db.saveOrder o) := frame rfl rfl rfl

end Quiet

/-! ### Writes on one order -/

/-- A write that leaves every order but `k` as it was, and keeps the foreign keys. -/
structure Touches (k : ℕ) (db db' : Db) : Prop where
  order : ∀ j, j ≠ k → db'.orders.get? j = db.orders.get? j
  lines : ∀ j, j ≠ k → db'.orderLines j = db.orderLines j
  allocations : ∀ j, j ≠ k → db'.orderAllocations j = db.orderAllocations j
  attempts : ∀ j, j ≠ k → db'.orderAttempts j = db.orderAttempts j
  references : References db → References db'

namespace Touches

variable {k : ℕ} {db db₁ db₂ : Db}

/-- Nothing of the order was touched. -/
theorem refl (k : ℕ) (db : Db) : Touches k db db :=
  ⟨fun _ _ => rfl, fun _ _ => rfl, fun _ _ => rfl, fun _ _ => rfl, id⟩

/-- What touches one order twice touches it once. -/
theorem trans (h : Touches k db db₁) (h' : Touches k db₁ db₂) : Touches k db db₂ where
  order j hj := (h'.order j hj).trans (h.order j hj)
  lines j hj := (h'.lines j hj).trans (h.lines j hj)
  allocations j hj := (h'.allocations j hj).trans (h.allocations j hj)
  attempts j hj := (h'.attempts j hj).trans (h.attempts j hj)
  references := h'.references ∘ h.references

/-- **Frame rule.** A write on the order `k` keeps what holds of all orders, when it holds
    of `k` afterwards. -/
theorem orders (h : Touches k db db₁) (hok : ∀ o ∈ db.orders, OrderOk db o)
    (hk : ∀ o ∈ db₁.orders, o.pk = k → OrderOk db₁ o) : ∀ o ∈ db₁.orders, OrderOk db₁ o := by
  intro o ho
  by_cases hpk : o.pk = k
  · exact hk o ho hpk
  · have hold : o ∈ db.orders := by
      have hget := h.order o.pk hpk
      have hself : db₁.orders.get? o.pk = some o := Table.get?_self ho
      exact (Table.get?_eq_some.mp (hget.symm.trans hself)).1
    obtain ⟨hstock, hpay⟩ := hok o hold
    constructor
    · rw [h.lines _ hpk, h.allocations _ hpk]; exact hstock
    · rw [h.lines _ hpk, h.allocations _ hpk, h.attempts _ hpk]; exact hpay

/-- A rewrite of allocations of the order that keeps what they refer to. -/
theorem modifyAllocations {p : Allocation → Bool} {u : Edit Allocation}
    (hp : ∀ a ∈ db.allocations, p a = true → a.orderId = k)
    (hu : ∀ a, (u.apply a).orderId = a.orderId ∧ (u.apply a).orderLineId = a.orderLineId
      ∧ (u.apply a).batchId = a.batchId) :
    Touches k db { db with allocations := db.allocations.modify p u } := by
  refine ⟨fun _ _ => rfl, fun _ _ => rfl, fun j hj => ?_, fun _ _ => rfl, fun h => ?_⟩
  · refine Table.select_modify_of_disjoint _ _ _ _ (fun a => by simp [(hu a).1]) (fun a ha haj => ?_)
    -- A row of another order is not among those modified.
    by_contra hpa
    have hak := hp a ha (by simpa using hpa)
    exact hj ((by simpa using haj : a.orderId = j).symm.trans hak)
  · refine ⟨h.line, fun a ha => ?_, h.attempt⟩
    obtain ⟨x, hx, rfl⟩ := Table.mem_modify.mp ha
    have hold := h.allocation x hx
    by_cases hpx : p x = true
    · rw [if_pos hpx, (hu x).1, (hu x).2.1, (hu x).2.2]; exact hold
    · rw [if_neg hpx]; exact hold

/-- Deleting allocations of the order. -/
theorem deleteAllocations {p : Allocation → Bool}
    (hp : ∀ a, p a = true → a.orderId = k) :
    Touches k db { db with allocations := db.allocations.delete p } := by
  refine ⟨fun _ _ => rfl, fun _ _ => rfl, fun j hj => ?_, fun _ _ => rfl, fun h => ?_⟩
  · refine Table.select_delete_of_disjoint _ _ _ (fun a _ ha => ?_)
    by_contra hpa
    exact hj ((by simpa using ha : a.orderId = j).symm.trans (hp a (by simpa using hpa)))
  · exact ⟨h.line, fun a ha => h.allocation a (Table.mem_delete.mp ha).1, h.attempt⟩

/-- New reservations for lines of the order. -/
theorem withReservations {xs : List NewAllocation}
    (hxs : ∀ x ∈ xs, x.line ∈ db.lines ∧ x.line.orderId = k
      ∧ ∃ b ∈ db.batches, b.pk = x.batchPk ∧ b.productId = x.line.productId) :
    Touches k db (db.withReservations xs) := by
  refine ⟨fun _ _ => rfl, fun _ _ => rfl, fun j hj => ?_, fun _ _ => rfl, fun h => ?_⟩
  · refine Table.select_insertAll_of_disjoint (fun a ha haj => ?_)
    obtain ⟨x, hx, n, rfl⟩ := Table.mem_made_map ha
    have haj' : x.line.orderId = j := of_decide_eq_true haj
    exact hj (haj'.symm.trans (hxs x hx).2.1)
  · refine ⟨h.line, fun a ha => ?_, h.attempt⟩
    rcases Table.mem_insertAll.mp ha with ha | ha
    · exact h.allocation a ha
    · obtain ⟨x, hx, n, rfl⟩ := Table.mem_made_map ha
      obtain ⟨hline, -, b, hb, hpk, hprod⟩ := hxs x hx
      exact ⟨x.line, hline, rfl, rfl, b, hb, hpk, hprod⟩

/-- Saving the order itself. -/
theorem saveOrder {o : Order} (hpk : o.pk = k) (hex : ∃ x ∈ db.orders, x.pk = k) :
    Touches k db (db.saveOrder o) := by
  have hex' : ∃ x ∈ db.orders, Row.pk x = Row.pk o := by
    obtain ⟨x, hx, hxk⟩ := hex
    exact ⟨x, hx, hxk.trans hpk.symm⟩
  refine ⟨fun j hj => ?_, fun _ _ => rfl, fun _ _ => rfl, fun _ _ => rfl, fun h => ?_⟩
  · refine (Table.get?_put hex' j).trans (if_neg (fun hjo => hj (hjo.trans hpk)))
  · have hkeep : ∀ i, (∃ x ∈ db.orders, x.pk = i) → ∃ x ∈ db.orders.put o, x.pk = i := by
      rintro i ⟨x, hx, rfl⟩
      by_cases hxo : x.pk = o.pk
      · exact ⟨o, (Table.mem_put hex').mpr (Or.inl rfl), hxo.symm⟩
      · exact ⟨x, (Table.mem_put hex').mpr (Or.inr ⟨hx, hxo⟩), rfl⟩
    exact ⟨fun l hl => hkeep _ (h.line l hl), h.allocation, fun p hp => hkeep _ (h.attempt p hp)⟩

/-- Inserting an attempt of the order. -/
theorem insertAttempt {d : NewRow PaymentAttempt} (hd : ∀ n, (d.make n).orderId = k)
    (hex : ∃ x ∈ db.orders, x.pk = k) :
    Touches k db { db with paymentAttempts := db.paymentAttempts.insert d } := by
  refine ⟨fun _ _ => rfl, fun _ _ => rfl, fun _ _ => rfl, fun j hj => ?_, fun h => ?_⟩
  · have hne : ¬ (d.make db.paymentAttempts.next).orderId = j := by
      rw [hd]; exact fun he => hj he.symm
    simp [Db.orderAttempts, Table.select, Table.insert, hne]
  · refine ⟨h.line, h.allocation, fun p hp => ?_⟩
    rcases Table.mem_insert.mp hp with hp | rfl
    · exact h.attempt p hp
    · rw [hd]; exact hex

/-- Saving an attempt of the order. -/
theorem saveAttempt {p : PaymentAttempt} (hp : p.orderId = k)
    (hex : ∃ x ∈ db.paymentAttempts, x.pk = p.pk ∧ x.orderId = k) :
    Touches k db (db.saveAttempt p) := by
  obtain ⟨x, hx, hxp, hxk⟩ := hex
  refine ⟨fun _ _ => rfl, fun _ _ => rfl, fun _ _ => rfl, fun j hj => ?_, fun h => ?_⟩
  · have hkj : ¬ k = j := fun he => hj he.symm
    exact Table.select_put_of_disjoint hx hxp (by simp [hxk, hkj]) (by simp [hp, hkj])
  · refine ⟨h.line, h.allocation, fun q hq => ?_⟩
    rcases (Table.mem_put ⟨x, hx, hxp⟩).mp hq with rfl | ⟨hq, -⟩
    · obtain ⟨o, ho, hok⟩ := h.attempt x hx
      exact ⟨o, ho, hok.trans (hxk.trans hp.symm)⟩
    · exact h.attempt q hq

/-! ### Lines, batches and new orders -/

/-- A write on the batches that keeps every batch's key and product. -/
theorem batches {t : Table InventoryBatch}
    (ht : ∀ b ∈ db.batches, ∃ b' ∈ t, b'.pk = b.pk ∧ b'.productId = b.productId) :
    Touches k db { db with batches := t } := by
  refine ⟨fun _ _ => rfl, fun _ _ => rfl, fun _ _ => rfl, fun _ _ => rfl, fun h => ?_⟩
  refine ⟨h.line, fun a ha => ?_, h.attempt⟩
  obtain ⟨l, hl, hlpk, hlo, b, hb, hbpk, hprod⟩ := h.allocation a ha
  obtain ⟨b', hb', hpk', hprod'⟩ := ht b hb
  exact ⟨l, hl, hlpk, hlo, b', hb', hpk'.trans hbpk, hprod'.trans hprod⟩

/-- A line of the order whose key and product the table knows. -/
def Resized (k : ℕ) (t : Table OrderLine) (l : OrderLine) : Prop :=
  l.orderId = k ∧ ∃ x ∈ t, x.pk = l.pk ∧ x.orderId = k ∧ x.productId = l.productId

/-- Saving a resized line of the order. -/
theorem putLine {l : OrderLine} (hl : Resized k db.lines l) :
    Touches k db { db with lines := db.lines.put l } := by
  obtain ⟨hlk, x, hx, hxl, hxk, hprod⟩ := hl
  refine ⟨fun _ _ => rfl, fun j hj => ?_, fun _ _ => rfl, fun _ _ => rfl, fun h => ?_⟩
  · have hkj : ¬ k = j := fun he => hj he.symm
    exact Table.select_put_of_disjoint hx hxl (by simp [hxk, hkj]) (by simp [hlk, hkj])
  · have hput := fun y => Table.mem_put (t := db.lines) (r := l) (x := y) ⟨x, hx, hxl⟩
    refine ⟨fun y hy => ?_, fun a ha => ?_, h.attempt⟩
    · rcases (hput y).mp hy with rfl | ⟨hy, -⟩
      · obtain ⟨o, ho, hpk⟩ := h.line x hx
        exact ⟨o, ho, hpk.trans (hxk.trans hlk.symm)⟩
      · exact h.line y hy
    · obtain ⟨y, hy, hypk, hyo, hb⟩ := h.allocation a ha
      -- An allocation of the saved line hangs on its new version.
      by_cases hyl : y.pk = l.pk
      · have : y = x := Table.eq_of_pk_eq hy hx (hyl.trans hxl.symm)
        subst this
        refine ⟨l, (hput l).mpr (Or.inl rfl), hxl.symm.trans hypk, ?_, ?_⟩
        · exact hlk.trans (hxk.symm.trans hyo)
        · obtain ⟨b, hb, hbpk, hbprod⟩ := hb
          exact ⟨b, hb, hbpk, hbprod.trans hprod⟩
      · exact ⟨y, (hput y).mpr (Or.inr ⟨hy, hyl⟩), hypk, hyo, hb⟩

/-- Saving several resized lines of the order. -/
theorem putLines {ls : List OrderLine} (hls : ∀ l ∈ ls, Resized k db.lines l) :
    Touches k db { db with lines := ls.foldl Table.put db.lines } := by
  -- By induction on the lines; a line saved before may be the one a later line is a version of.
  induction ls generalizing db with
  | nil => exact refl k db
  | cons l ls ih =>
    have hl := hls l (List.mem_cons_self ..)
    refine (putLine hl).trans (ih (fun l' hl' => ?_))
    obtain ⟨hlk', y, hy, hyl', hyk, hprod'⟩ := hls l' (List.mem_cons_of_mem _ hl')
    obtain ⟨hlk, x, hx, hxl, hxk, hprod⟩ := hl
    have hput := fun y => Table.mem_put (t := db.lines) (r := l) (x := y) ⟨x, hx, hxl⟩
    refine ⟨hlk', ?_⟩
    by_cases hyl : y.pk = l.pk
    · have : y = x := Table.eq_of_pk_eq hy hx (hyl.trans hxl.symm)
      subst this
      exact ⟨l, (hput l).mpr (Or.inl rfl), hxl.symm.trans hyl', hlk, hprod.symm.trans hprod'⟩
    · exact ⟨y, (hput y).mpr (Or.inr ⟨hy, hyl⟩), hyl', hyk, hprod'⟩

/-- Deleting lines of the order, with their allocations. -/
theorem deleteLines {pks : List ℕ} (hrefs : References db)
    (hpks : ∀ l ∈ db.lines, l.pk ∈ pks → l.orderId = k) : Touches k db (db.deleteLines pks) := by
  refine ⟨fun _ _ => rfl, fun j hj => ?_, fun j hj => ?_, fun _ _ => rfl, fun h => ?_⟩
  · refine Table.select_delete_of_disjoint _ _ _ (fun l hl hlj => ?_)
    by_contra hmem
    have hk := hpks l hl (by simpa using hmem)
    exact hj ((by simpa using hlj : l.orderId = j).symm.trans hk)
  -- Allocations are deleted with their lines, which are the order's.
  · refine Table.select_delete_of_disjoint _ _ _ (fun a ha haj => ?_)
    by_contra hmem
    obtain ⟨l, hl, hlpk, hlo, -⟩ := hrefs.allocation a ha
    have hk := hpks l hl (by rw [hlpk]; simpa using hmem)
    exact hj ((by simpa using haj : a.orderId = j).symm.trans (hlo.symm.trans hk))
  · refine ⟨fun l hl => h.line l (Table.mem_delete.mp hl).1, fun a ha => ?_, h.attempt⟩
    obtain ⟨ha, hkeep⟩ := Table.mem_delete.mp ha
    obtain ⟨l, hl, hlpk, hrest⟩ := h.allocation a ha
    exact ⟨l, Table.mem_delete.mpr ⟨hl, by rw [hlpk]; exact hkeep⟩, hlpk, hrest⟩

/-- Inserting lines of the order. -/
theorem insertLines {xs : List NewOrderLine} (hxs : ∀ x ∈ xs, x.orderId = k)
    (hex : ∃ x ∈ db.orders, x.pk = k) :
    Touches k db { db with lines := db.lines.insertAll (xs.map NewOrderLine.row) } := by
  -- All new lines name the order.
  have hmade : ∀ l ∈ Table.made db.lines.next (xs.map NewOrderLine.row), l.orderId = k := by
    intro l hl
    obtain ⟨x, hx, n, rfl⟩ := Table.mem_made_map hl
    exact hxs x hx
  refine ⟨fun _ _ => rfl, fun j hj => ?_, fun _ _ => rfl, fun _ _ => rfl, fun h => ?_⟩
  · exact Table.select_insertAll_of_disjoint
      (fun l hl hlj => hj ((of_decide_eq_true hlj).symm.trans (hmade l hl)))
  · refine ⟨fun l hl => ?_, fun a ha => ?_, h.attempt⟩
    · rcases Table.mem_insertAll.mp hl with hl | hl
      · exact h.line l hl
      · rw [hmade l hl]; exact hex
    · obtain ⟨l, hl, hrest⟩ := h.allocation a ha
      exact ⟨l, Table.mem_insertAll.mpr (Or.inl hl), hrest⟩

/-- Inserting the order itself. -/
theorem insertOrder {d : NewRow Order} (hk : db.orders.next = k) :
    Touches k db { db with orders := db.orders.insert d } := by
  refine ⟨fun j hj => ?_, fun _ _ => rfl, fun _ _ => rfl, fun _ _ => rfl, fun h => ?_⟩
  · have hpk : (d.make db.orders.next).pk = k := (d.pk_make _).trans hk
    have hne : ¬ (d.make db.orders.next).pk = j := fun he => hj (he.symm.trans hpk)
    simp [Table.get?, Table.insert, List.find?_append, hne]
  · have hkeep : ∀ i, (∃ x ∈ db.orders, x.pk = i) → ∃ x ∈ db.orders.insert d, x.pk = i := by
      rintro i ⟨x, hx, rfl⟩
      exact ⟨x, Table.mem_insert.mpr (Or.inl hx), rfl⟩
    exact ⟨fun l hl => hkeep _ (h.line l hl), h.allocation, fun p hp => hkeep _ (h.attempt p hp)⟩

end Touches

/-- An order that does not exist yet has no lines. -/
theorem Db.orderLines_of_fresh {db : Db} (hlines : ∀ l ∈ db.lines, ∃ o ∈ db.orders, o.pk = l.orderId)
    {k : ℕ} (hk : ∀ o ∈ db.orders, o.pk ≠ k) : db.orderLines k = [] := by
  rw [List.eq_nil_iff_forall_not_mem]
  intro l hl
  obtain ⟨hl, horder⟩ := Db.mem_orderLines.mp hl
  obtain ⟨o, ho, hpk⟩ := hlines l hl
  exact hk o ho (hpk.trans horder)

/-- Nothing else hangs on it either. -/
theorem References.fresh {db : Db} (h : References db) {k : ℕ} (hk : ∀ o ∈ db.orders, o.pk ≠ k) :
    db.orderLines k = [] ∧ db.orderAllocations k = [] ∧ db.orderAttempts k = [] := by
  refine ⟨Db.orderLines_of_fresh h.line hk, ?_, ?_⟩ <;>
    rw [List.eq_nil_iff_forall_not_mem] <;> intro r hr
  · obtain ⟨hr, hrk⟩ := Db.mem_orderAllocations.mp hr
    obtain ⟨l, hl, -, hlo, -⟩ := h.allocation r hr
    obtain ⟨o, ho, hpk⟩ := h.line l hl
    exact hk o ho (hpk.trans (hlo.trans hrk))
  · obtain ⟨hr, hrk⟩ := Db.mem_orderAttempts.mp hr
    obtain ⟨o, ho, hpk⟩ := h.attempt r hr
    exact hk o ho (hpk.trans hrk)

end SwedeSweets
