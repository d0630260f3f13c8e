import SwedeSweets.Invariants.Reachable

namespace SwedeSweets

open Relational Fallible Transition

/-!
# Stock guarantees

What the system invariant says about stock, in every reachable state:

* `no_oversell` — active reservations fit the physical stock of an ACTIVE batch;
* `reservation_coverage` — the reservations of an order fit its status, line by line;
* `stock_conserved` — a placed order packs, taking exactly what it reserved, and over a run
  the quantity of a batch is what was last set on it less what was picked from it since
  (`Ledger`).
-/

/-! ### A shop to compute with -/

namespace Shop

/-- A runtime whose tables only know plain text. -/
def runtime (now : Time) : Runtime where
  now := now
  today := 0
  textLe a b := a ≤ b
  upper := id
  nfkd := id
  decimal _ := none
  iexact a b := a = b

def product : Product := ⟨1, some 1, "Brand", "Name", 100, "SKU", true⟩

/-- The standard business offer. -/
def businessOffer : CommercialPrice := ⟨1, 1, none, .business, "", true, []⟩

/-- Its retail offer at 10.00. -/
def retailOffer : CommercialPrice :=
  ⟨2, 1, none, .retail, "", true, [⟨.eur, 1000, none, by decide⟩]⟩

/-- The one product, and the one city it is sent to. -/
def products : Table Product := ⟨[product], 2, by decide, by decide⟩

def areas : Table RetailPostalArea := ⟨[⟨1, "SE", "1", "City", true⟩], 2, by decide, by decide⟩

/-- The standard business offer of the product, and its retail offer at 10.00. -/
def offers : Table CommercialPrice where
  rows := [businessOffer, retailOffer]
  next := 3
  sorted := by decide
  bounded := by decide

/-- A buyer in the one city. -/
def buyer : AnonymousBuyerInput :=
  ⟨"Ada", "Lind", "ada@example.org", "070 1", "SE", "1", "City", "Road 1"⟩

/-- Ten units of one product on one batch, sold through both channels. -/
def opening : List (Runtime × Op) :=
  [ (runtime 0, .catalog products offers areas),
    (runtime 0, .createBatch 1 10 30 "Shelf" (some "B") none false none) ]

/-- A business order of three units and a retail order of two that waits for its payment. -/
def morning : List (Runtime × Op) :=
  opening ++
  [ (runtime 1, .createOrder 7 [⟨3, .stock, some 1, none⟩] none),
    (runtime 2, .createPendingRetailOrder buyer [⟨2, 2⟩]),
    (runtime 3, .startRetailPayment 1) ]

/-- The business order is packed, the batch is counted, and the retail order is paid. -/
def day : List (Runtime × Op) :=
  morning ++
  [ (runtime 4, .packOrder 1 none),
    (runtime 5, .updateBatch 1 20 30 "Shelf" none),
    (runtime 6, .completeRetailPayment 1 none) ]

end Shop

/-! ### No oversell -/

/-- **No oversell.** -/
theorem no_oversell {s : State} (h : Reachable s) {now : Time} (hnow : s.clock ≤ now) :
    ∀ b ∈ s.db.batches, s.db.activeReserved now b.pk ≤ b.quantity ∧
      ∀ a ∈ s.db.allocations, a.batchId = b.pk → a.isActive now = true → b.status = .active := by
  have hstock := ((inv_of_reachable h).later hnow).stock
  refine fun b hb => ⟨hstock.fits b hb, fun a ha hab hact => hstock.active b hb ?_⟩
  have hunits : a.activeOn now b.pk = a.quantity := if_pos ⟨hab, hact⟩
  have hle := Table.le_total ha (Allocation.activeOn now b.pk)
  rw [hunits] at hle
  exact lt_of_lt_of_le a.quantity_pos hle

/-- Both orders of the morning hold stock, and it fits. -/
theorem no_oversell_morning :
    (State.init.after Shop.morning).db.activeReserved 3 1 = 5 ∧
      ∀ b ∈ (State.init.after Shop.morning).db.batches,
        (State.init.after Shop.morning).db.activeReserved 3 b.pk ≤ b.quantity :=
  ⟨by decide +kernel, fun b hb =>
    (no_oversell (reachable_after Shop.morning (by decide)) (by decide +kernel) b hb).1⟩

/-! ### Reservation coverage -/

/-- The units of a line's allocations in one status. -/
def Db.lineUnits (db : Db) (status : AllocationStatus) (linePk : ℕ) : ℕ :=
  (((db.lineAllocations linePk).filter (fun a => a.status = status)).map Allocation.quantity).sum

/-- The allocations of a line are allocations of its order. -/
theorem References.lineAllocation {db : Db} (h : References db) {l : OrderLine} (hl : l ∈ db.lines)
    {a : Allocation} (ha : a ∈ db.lineAllocations l.pk) :
    a ∈ db.orderAllocations l.orderId ∧ ∃ b ∈ db.batches, b.pk = a.batchId
      ∧ b.productId = l.productId := by
  obtain ⟨hmem, hal⟩ := Db.mem_lineAllocations.mp ha
  obtain ⟨x, hx, hpk, horder, hb⟩ := h.allocation a hmem
  have hxl : x = l := Table.eq_of_pk_eq (t := db.lines) hx hl (hpk.trans hal)
  subst hxl
  exact ⟨Db.mem_orderAllocations.mpr ⟨hmem, horder.symm⟩, hb⟩

/-- So what the order has for the line is what the line has. -/
theorem References.lineUnits {db : Db} (h : References db) {l : OrderLine} (hl : l ∈ db.lines)
    (status : AllocationStatus) :
    db.lineUnits status l.pk = unitsOf (db.orderAllocations l.orderId) status l.pk := by
  have hline : db.lineUnits status l.pk = db.allocations.total
      (fun a => if a.orderLineId = l.pk ∧ a.status = status then a.quantity else 0) := by
    unfold Db.lineUnits Db.lineAllocations Table.select
    rw [List.filter_filter]
    refine (Table.sum_select db.allocations _ Allocation.quantity).trans ?_
    refine Table.total_congr (fun a _ => ?_)
    by_cases hs : a.status = status <;> by_cases hp : a.orderLineId = l.pk <;> simp [hs, hp]
  -- the same sum, over the allocations of the line's order
  have horder : unitsOf (db.orderAllocations l.orderId) status l.pk = db.allocations.total
      (fun a => if a.orderId = l.orderId then
        (if a.orderLineId = l.pk ∧ a.status = status then a.quantity else 0) else 0) := by
    refine (Table.sum_select db.allocations _ _).trans ?_
    refine Table.total_congr (fun a _ => ?_)
    by_cases ho : a.orderId = l.orderId <;> simp [ho]
  rw [hline, horder]
  refine Table.total_congr (fun a ha => ?_)
  by_cases hal : a.orderLineId = l.pk
  · have hmem := (h.lineAllocation hl (Db.mem_lineAllocations.mpr ⟨ha, hal⟩)).1
    rw [if_pos (Db.mem_orderAllocations.mp hmem).2]
  · simp [hal]

/-- A line that is covered has an allocation in that status. -/
theorem exists_of_lineUnits_pos {db : Db} {status : AllocationStatus} {k : ℕ}
    (h : 0 < db.lineUnits status k) : ∃ a ∈ db.lineAllocations k, a.status = status := by
  by_contra hnone
  push Not at hnone
  have hnil : (db.lineAllocations k).filter (fun a => a.status = status) = [] := by
    rw [List.filter_eq_nil_iff]
    exact fun a ha => by simpa using hnone a ha
  unfold Db.lineUnits at h
  rw [hnil] at h
  exact absurd h (Nat.lt_irrefl 0)

/-- **Reservation coverage.** -/
theorem reservation_coverage {s : State} (h : Reachable s) :
    ∀ o ∈ s.db.orders, ∀ l ∈ s.db.orderLines o.pk,
      (o.status = .placed →
        (∃ a ∈ s.db.lineAllocations l.pk, a.status = .reserved) ∧
        (∀ a ∈ s.db.lineAllocations l.pk, a.status = .reserved → a.reservedUntil = none ∧
          ∃ b ∈ s.db.batches, b.pk = a.batchId ∧ b.productId = l.productId) ∧
        s.db.lineUnits .reserved l.pk = l.quantityInUnits) ∧
      ((o.status = .packed ∨ o.status = .delivered) →
        (∀ a ∈ s.db.lineAllocations l.pk, a.status ≠ .reserved) ∧
        s.db.lineUnits .consumed l.pk = l.quantityInUnits) ∧
      (o.status = .cancelled → ∀ a ∈ s.db.lineAllocations l.pk, a.status ≠ .reserved) := by
  intro o ho l hl
  have hinv := inv_of_reachable h
  obtain ⟨hline, horder⟩ := Db.mem_orderLines.mp hl
  have hmem : ∀ a ∈ s.db.lineAllocations l.pk, a ∈ s.db.orderAllocations o.pk := fun a ha =>
    horder ▸ (hinv.references.lineAllocation hline ha).1
  -- the invariant counts within the order's allocations
  have hunits : ∀ status, s.db.lineUnits status l.pk
      = unitsOf (s.db.orderAllocations o.pk) status l.pk := fun status =>
    horder ▸ hinv.references.lineUnits hline status
  have hstock := (hinv.orders o ho).stock
  unfold StockOk at hstock
  refine ⟨fun hst => ?_, fun hst => ?_, fun hst => ?_⟩
  · rw [hst] at hstock
    have hcover : s.db.lineUnits .reserved l.pk = l.quantityInUnits :=
      (hunits .reserved).trans (hstock.covers l hl)
    refine ⟨exists_of_lineUnits_pos (hcover ▸ l.quantity_pos), fun a ha hres => ?_, hcover⟩
    exact ⟨hstock.durable a (hmem a ha) hres, (hinv.references.lineAllocation hline ha).2⟩
  · have hpicked : Picked (s.db.orderLines o.pk) (s.db.orderAllocations o.pk) := by
      rcases hst with hst | hst <;> rwa [hst] at hstock
    exact ⟨fun a ha => hpicked.unreserved a (hmem a ha),
      (hunits .consumed).trans (hpicked.covers l hl)⟩
  · rw [hst] at hstock
    exact fun a ha => hstock a (hmem a ha)

/-- The business order of the morning is PLACED, and its line has its three units. -/
theorem reservation_coverage_morning :
    ∃ o ∈ (State.init.after Shop.morning).db.orders, o.status = .placed ∧
      ∃ l ∈ (State.init.after Shop.morning).db.orderLines o.pk, l.quantityInUnits = 3 ∧
        (State.init.after Shop.morning).db.lineUnits .reserved l.pk = 3 := by
  have hrun : Reachable (State.init.after Shop.morning) := reachable_after _ (by decide)
  have hex : ∃ o ∈ (State.init.after Shop.morning).db.orders.rows, o.status = .placed ∧
      ∃ l ∈ (State.init.after Shop.morning).db.orderLines o.pk, l.quantityInUnits = 3 := by
    decide +kernel
  obtain ⟨o, ho, hst, l, hl, hq⟩ := hex
  exact ⟨o, ho, hst, l, hl, hq, hq ▸ ((reservation_coverage hrun o ho l hl).1 hst).2.2⟩

/-! ### Packing -/

/-- The write took `taken k` units from each batch `k`, and left a batch alone where it took
    nothing. -/
structure Takes (taken : ℕ → ℕ) (db db' : Db) : Prop where
  unknown : ∀ k, db.batches.get? k = none → db'.batches.get? k = none
  enough : ∀ k b, db.batches.get? k = some b → taken k ≤ b.quantity
  taken : ∀ k b, db.batches.get? k = some b → ∃ b', db'.batches.get? k = some b' ∧
    b'.quantity = b.quantity - taken k ∧ (taken k = 0 → b' = b)

/-- Consuming takes what the order had reserved. -/
theorem takes_consumed {now : Time} {db : Db} {o : Order} (h : Inv now db) (ho : o ∈ db.orders)
    (hst : o.status = .placed) : Takes (db.reservedBy o.pk) db (db.consumed o.pk) := by
  -- each batch is looked up after the consumption of its own share
  have hget : ∀ k, (db.consumed o.pk).batches.get? k = (db.batches.get? k).map
      (fun b => if 0 < db.reservedBy o.pk b.pk then
        (takeUnits (db.reservedBy o.pk)).apply b else b) := by
    intro k
    refine (Table.get?_modify _ _ _ _).trans ?_
    simp only [decide_eq_true_eq]
  refine ⟨fun k hk => by rw [hget, hk]; rfl, fun k b hk => ?_, fun k b hk => ?_⟩
  · obtain ⟨hb, rfl⟩ := Table.get?_eq_some.mp hk
    have hsum := NoOversell.activeReserved_consumed _ (h.active_of_placed ho hst now) b.pk
    have hfits := h.stock.fits b hb
    show db.reservedBy o.pk b.pk ≤ b.quantity
    omega
  · obtain ⟨-, rfl⟩ := Table.get?_eq_some.mp hk
    rw [hget, hk, Option.map_some]
    by_cases hpos : 0 < db.reservedBy o.pk b.pk
    · rw [if_pos hpos]
      exact ⟨_, rfl, rfl, fun hzero => absurd hzero (Nat.pos_iff_ne_zero.mp hpos)⟩
    · have hsame : b.quantity = b.quantity - db.reservedBy o.pk b.pk := by omega
      rw [if_neg hpos]
      exact ⟨_, rfl, hsame, fun _ => rfl⟩

/-! ### The stock account -/

/-- The quantity last set on a batch, and the units consumed from it since. -/
structure StockAccount where
  lastSet : ℕ
  consumedSince : ℕ
  deriving DecidableEq, Repr

/-- The account of every batch that was ever set. -/
abbrev Ledger := ℕ → Option StockAccount

/-- The absolute quantity an operation sets on a batch. -/
def Op.setsQuantity (rt : Runtime) (db : Db) (k : ℕ) : Op → Option ℕ
  | .createBatch productPk quantity bestBefore location batchId today allow user =>
      match SwedeSweets.createBatch rt db productPk quantity bestBefore location batchId today
        allow user with
      | .ok _ => if db.batches.next = k then some quantity.toNat else none
      | .error _ => none
  | .updateBatch batchPk quantity bestBefore location user =>
      match SwedeSweets.updateBatch rt db batchPk quantity bestBefore location user with
      | .ok _ => if batchPk = k then some quantity.toNat else none
      | .error _ => none
  | _ => none

/-- The allocation with this key was CONSUMED. -/
def Db.wasConsumed (db : Db) (allocationPk : ℕ) : Bool :=
  (db.allocations.get? allocationPk).any (fun a => a.status = .consumed)

/-- The units on a batch that became CONSUMED from one database to the next. -/
def becameConsumed (db db' : Db) (k : ℕ) : ℕ :=
  db'.allocations.total (fun a =>
    if a.batchId = k ∧ a.status = .consumed ∧ db.wasConsumed a.pk = false then a.quantity else 0)

/-- Enter one operation. -/
def Ledger.post (ledger : Ledger) (rt : Runtime) (op : Op) (db : Db) : Ledger := fun k =>
  match op.setsQuantity rt db k with
  | some quantity => some ⟨quantity, 0⟩
  | none => (ledger k).map (fun account =>
      { account with
        consumedSince := account.consumedSince + becameConsumed db (op.exec rt db) k })

/-- The state and the ledger after some operations from the empty database. -/
def bookkeeping (ls : List (Runtime × Op)) : State × Ledger :=
  ls.foldl (fun x l => (⟨l.1.now, l.2.exec l.1 x.1.db⟩, x.2.post l.1 l.2 x.1.db))
    (State.init, fun _ => none)

/-- Every batch has an account, and holds what its account says. -/
def Balanced (ledger : Ledger) (db : Db) : Prop :=
  ∀ b ∈ db.batches, ∃ account, ledger b.pk = some account
    ∧ b.quantity + account.consumedSince = account.lastSet

theorem becameConsumed_eq_zero {db db' : Db} (h : ∀ a ∈ db'.allocations, a.status = .consumed →
    a ∈ db.allocations) (k : ℕ) : becameConsumed db db' k = 0 := by
  unfold becameConsumed
  rw [Table.total_eq_zero]
  intro a ha
  refine if_neg (fun hc => ?_)
  obtain ⟨-, hst, hnew⟩ := hc
  have hget : db.allocations.get? a.pk = some a := Table.get?_self (h a ha hst)
  rw [Db.wasConsumed, hget] at hnew
  simp [hst] at hnew

/-- What packing consumes is what the order had reserved. -/
theorem becameConsumed_consumed (db : Db) (o k : ℕ) :
    becameConsumed db (db.consumed o) k = db.reservedBy o k := by
  unfold becameConsumed Db.reservedBy Db.consumed
  rw [Table.total_modify]
  refine Table.total_congr (fun a ha => ?_)
  have hget : db.allocations.get? a.pk = some a := Table.get?_self ha
  -- a reserved allocation of the order turns consumed; any other keeps its status
  by_cases hr : reservedOf o a = true
  · have hold : db.wasConsumed a.pk = false := by
      rw [Db.wasConsumed, hget]
      simp [(reservedOf_iff.mp hr).2]
    rw [if_pos hr]
    by_cases hk : a.batchId = k <;> simp [setStatus, hk, hold, hr]
  · rw [if_neg hr]
    by_cases hst : a.status = .consumed
    · have hold : db.wasConsumed a.pk = true := by rw [Db.wasConsumed, hget]; simp [hst]
      simp [hold, hr]
    · simp [hst, hr]

namespace Balanced

variable {ledger : Ledger} {rt : Runtime} {db db' : Db}

/-- Nothing is set and nothing consumed. -/
theorem quiet {op : Op} (h : Balanced ledger db) (hset : ∀ k, op.setsQuantity rt db k = none)
    (hq : StockQuiet db (op.exec rt db)) :
    Balanced (ledger.post rt op db) (op.exec rt db) := by
  intro b hb
  obtain ⟨account, hacc, hsum⟩ := h b (hq.batches ▸ hb)
  refine ⟨account, ?_, hsum⟩
  rw [Ledger.post, hset]
  simp [hacc, becameConsumed_eq_zero hq.consumed]

/-- A batch keeps its account when nothing is set on it and nothing consumed. -/
theorem post_of_unset {op : Op} {k : ℕ} {account : StockAccount} (hacc : ledger k = some account)
    (hset : op.setsQuantity rt db k = none)
    (hcon : ∀ a ∈ (op.exec rt db).allocations, a.status = .consumed → a ∈ db.allocations) :
    ledger.post rt op db k = some account := by
  rw [Ledger.post, hset]
  simp [hacc, becameConsumed_eq_zero hcon]

/-- **A new batch opens its account with its own quantity.** -/
theorem createBatch {productPk : ℕ} {quantity : ℤ} {bestBefore : Date} {location : String}
    {batchId : Option String} {today : Option Date} {allow : Bool} {user : Option ℕ}
    (h : Balanced ledger db) :
    Balanced (ledger.post rt (.createBatch productPk quantity bestBefore location batchId today
        allow user) db)
      ((Op.createBatch productPk quantity bestBefore location batchId today allow user).exec
        rt db) := by
  -- a refused creation posts nothing
  cases hok : SwedeSweets.createBatch rt db productPk quantity bestBefore location batchId today
      allow user with
  | error e =>
    have hexec : (Op.createBatch productPk quantity bestBefore location batchId today allow
        user).exec rt db = db := by simp [Op.exec, Op.atomic, hok, Db.commit]
    refine h.quiet (fun k => by simp [Op.setsQuantity, hok]) ?_
    rw [hexec]
    exact StockQuiet.refl db
  | ok db' =>
    have hexec : (Op.createBatch productPk quantity bestBefore location batchId today allow
        user).exec rt db = db' := by simp [Op.exec, Op.atomic, hok, Db.commit]
    obtain ⟨-, -, product, id, place, rfl⟩ := createBatch_eq_ok hok
    intro b hb
    rw [hexec] at hb
    rcases Table.mem_insert.mp hb with hb | rfl
    · obtain ⟨account, hacc, hsum⟩ := h b hb
      have hne : db.batches.next ≠ b.pk := fun he =>
        Nat.lt_irrefl _ (he ▸ db.batches.bounded b hb)
      refine ⟨account, post_of_unset hacc ?_ (by rw [hexec]; exact fun a ha _ => ha), hsum⟩
      simp [Op.setsQuantity, hok, hne]
    · refine ⟨⟨quantity.toNat, 0⟩, ?_, rfl⟩
      simp [Ledger.post, Op.setsQuantity, hok, newBatch]

/-- **A correction restarts the account of its batch.** -/
theorem updateBatch {batchPk : ℕ} {quantity : ℤ} {bestBefore : Date} {location : String}
    {user : Option ℕ} (h : Balanced ledger db) :
    Balanced (ledger.post rt (.updateBatch batchPk quantity bestBefore location user) db)
      ((Op.updateBatch batchPk quantity bestBefore location user).exec rt db) := by
  cases hok : SwedeSweets.updateBatch rt db batchPk quantity bestBefore location user with
  | error e =>
    have hexec : (Op.updateBatch batchPk quantity bestBefore location user).exec rt db = db := by
      simp [Op.exec, Op.atomic, hok, Db.commit]
    refine h.quiet (fun k => by simp [Op.setsQuantity, hok]) ?_
    rw [hexec]
    exact StockQuiet.refl db
  | ok db' =>
    have hexec : (Op.updateBatch batchPk quantity bestBefore location user).exec rt db = db' := by
      simp [Op.exec, Op.atomic, hok, Db.commit]
    obtain ⟨b, hb, rfl, -, -, -, -, place, rfl⟩ := updateBatch_eq_ok hok
    intro x hx
    rw [hexec] at hx
    rcases Table.of_mem_put hx with rfl | ⟨hx, hne⟩
    · refine ⟨⟨quantity.toNat, 0⟩, ?_, rfl⟩
      simp [Ledger.post, Op.setsQuantity, hok]
    · obtain ⟨account, hacc, hsum⟩ := h x hx
      have hne' : b.pk ≠ x.pk := fun he => hne he.symm
      refine ⟨account, post_of_unset hacc ?_ (by rw [hexec]; exact fun a ha _ => ha), hsum⟩
      simp [Op.setsQuantity, hok, hne']

/-- **Closing a batch posts nothing.** -/
theorem closeBatch {batchPk : ℕ} {user : Option ℕ} (h : Balanced ledger db) :
    Balanced (ledger.post rt (.closeBatch batchPk user) db)
      ((Op.closeBatch batchPk user).exec rt db) := by
  cases hok : SwedeSweets.closeBatch rt db batchPk user with
  | error e =>
    have hexec : (Op.closeBatch batchPk user).exec rt db = db := by
      simp [Op.exec, Op.atomic, hok, Db.commit]
    refine h.quiet (fun k => rfl) ?_
    rw [hexec]
    exact StockQuiet.refl db
  | ok db' =>
    have hexec : (Op.closeBatch batchPk user).exec rt db = db' := by
      simp [Op.exec, Op.atomic, hok, Db.commit]
    obtain ⟨b, hb, rfl, -, rfl⟩ := closeBatch_eq_ok.mp hok
    intro x hx
    rw [hexec] at hx
    have hold : ∃ y ∈ db.batches, y.pk = x.pk ∧ y.quantity = x.quantity := by
      rcases Table.of_mem_put hx with rfl | ⟨hx, -⟩
      · exact ⟨b, hb, rfl, rfl⟩
      · exact ⟨x, hx, rfl, rfl⟩
    obtain ⟨y, hy, hpk, hq⟩ := hold
    obtain ⟨account, hacc, hsum⟩ := h y hy
    rw [hpk] at hacc
    exact ⟨account, post_of_unset hacc rfl (by rw [hexec]; exact fun a ha _ => ha), hq ▸ hsum⟩

/-- **Packing posts to each batch what the order had reserved there.** -/
theorem packOrder {k : ℕ} {user : Option ℕ} (hinv : Inv rt.now db) (h : Balanced ledger db) :
    Balanced (ledger.post rt (.packOrder k user) db) ((Op.packOrder k user).exec rt db) := by
  cases hok : Fulfillment.packOrder rt db k user with
  | error e =>
    have hexec : (Op.packOrder k user).exec rt db = db := by
      simp [Op.exec, Op.atomic, hok, Db.commit]
    refine h.quiet (fun k => rfl) ?_
    rw [hexec]
    exact StockQuiet.refl db
  | ok db' =>
    have hexec : (Op.packOrder k user).exec rt db = db' := by
      simp [Op.exec, Op.atomic, hok, Db.commit]
    obtain ⟨o, ho, rfl, hst, -, rfl⟩ := Inv.packOrder_fulfillment_eq_ok.mp hok
    have htakes := takes_consumed hinv ho hst
    intro b' hb'
    rw [hexec] at hb'
    have hget' : (db.consumed o.pk).batches.get? b'.pk = some b' := Table.get?_self hb'
    cases hget : db.batches.get? b'.pk with
    | none => rw [htakes.unknown _ hget] at hget'; cases hget'
    | some b =>
      obtain ⟨b'', hb'', hq, -⟩ := htakes.taken _ b hget
      have hsame : b'' = b' := Option.some.inj (hb''.symm.trans hget')
      subst hsame
      obtain ⟨hb, hpk⟩ := Table.get?_eq_some.mp hget
      obtain ⟨account, hacc, hsum⟩ := h b hb
      have hle := htakes.enough _ b hget
      -- the batch loses what the ledger notes as consumed
      have hcon : becameConsumed db ((Op.packOrder o.pk user).exec rt db) b''.pk
          = db.reservedBy o.pk b''.pk := by
        rw [hexec]
        exact becameConsumed_consumed db o.pk b''.pk
      refine ⟨{ account with
        consumedSince := account.consumedSince + db.reservedBy o.pk b''.pk }, ?_, ?_⟩
      · have hacc' : ledger b''.pk = some account := by rw [← hpk]; exact hacc
        show ((ledger b''.pk).map _) = _
        rw [hacc', Option.map_some, hcon]
      · show b''.quantity + (account.consumedSince + db.reservedBy o.pk b''.pk) = account.lastSet
        omega

/-- **Step.** Every operation keeps the books balanced. -/
theorem exec (hinv : Inv rt.now db) (h : Balanced ledger db) (op : Op) :
    Balanced (ledger.post rt op db) (op.exec rt db) := by
  by_cases hmoves : op.movesStock = true
  · cases op with
    | createBatch => exact h.createBatch
    | updateBatch => exact h.updateBatch
    | closeBatch => exact h.closeBatch
    | packOrder => exact h.packOrder hinv
    | _ => cases hmoves
  · have hquiet := (hinv.exec op).stock (by simpa using hmoves)
    refine h.quiet (fun k => ?_) hquiet
    cases op with
    | createBatch => exact absurd rfl hmoves
    | updateBatch => exact absurd rfl hmoves
    | _ => rfl

/-- **Run.** The books of a run balance at its end. -/
theorem run {s : State} {ls : List (Runtime × Op)} (h : Run SystemStep State.init ls s) :
    (bookkeeping ls).1 = s ∧ Balanced (bookkeeping ls).2 s.db := by
  induction h with
  | nil => exact ⟨rfl, fun b hb => (Table.not_mem_empty b hb).elim⟩
  | @snoc t u ls l hrun hst ih =>
    obtain ⟨hstate, hbal⟩ := ih
    have hinv := inv_of_reachable ⟨ls, hrun⟩
    obtain ⟨hle, rfl⟩ := hst
    have hbook : bookkeeping (ls ++ [l]) = (⟨l.1.now, l.2.exec l.1 t.db⟩,
        (bookkeeping ls).2.post l.1 l.2 t.db) := by
      rw [← hstate]
      simp [bookkeeping, List.foldl_append]
    rw [hbook]
    exact ⟨rfl, hbal.exec (hinv.later hle) l.2⟩

end Balanced

/-- **Stock is conserved.**  A placed order can be packed at any later time, and packing
    takes exactly what it reserved.  Over a run the quantity of a batch is the quantity last
    set on it less the units consumed from it since; and an operation that is neither an
    inventory operation nor a packing changes no batch. -/
theorem stock_conserved {s : State} {ls : List (Runtime × Op)}
    (h : Run SystemStep State.init ls s) :
    (∀ o ∈ s.db.orders, o.status = .placed → ∀ rt : Runtime, s.clock ≤ rt.now → ∀ user,
      ∃ db', Fulfillment.packOrder rt s.db o.pk user = .ok db' ∧
        Takes (s.db.reservedBy o.pk) s.db db') ∧
    (∀ b ∈ s.db.batches, ∃ account, (bookkeeping ls).2 b.pk = some account ∧
      (b.quantity : ℤ) = account.lastSet - account.consumedSince) ∧
    (∀ (rt : Runtime) (op : Op), s.clock ≤ rt.now → op.movesStock = false →
      (op.exec rt s.db).batches = s.db.batches) := by
  have hinv := inv_of_reachable ⟨ls, h⟩
  -- packing a placed order, replaying the books, and what moves no stock
  refine ⟨fun o ho hst rt hle user => ?_, fun b hb => ?_, fun rt op hle hop => ?_⟩
  · have hnow := hinv.later hle
    have htakes := takes_consumed hnow ho hst
    exact ⟨_, hnow.pack_ok (quantitiesFit_of_reachable ⟨ls, h⟩) ho hst user, htakes.unknown,
      htakes.enough, htakes.taken⟩
  · obtain ⟨account, hacc, hsum⟩ := (Balanced.run h).2 b hb
    exact ⟨account, hacc, by omega⟩
  · exact (((hinv.later hle).exec op).stock hop).batches

/-- The day ends with twenty units counted and nothing picked since; the paid retail order
    can be packed. -/
theorem stock_conserved_day :
    (bookkeeping Shop.day).2 1 = some ⟨20, 0⟩ ∧
      ∃ db', Fulfillment.packOrder (Shop.runtime 7) (State.init.after Shop.day).db 2 none
          = .ok db' ∧
        Takes ((State.init.after Shop.day).db.reservedBy 2) (State.init.after Shop.day).db db' := by
  have hrun : Run SystemStep State.init Shop.day (State.init.after Shop.day) :=
    State.run_after (by decide)
  have hex : ∃ o ∈ (State.init.after Shop.day).db.orders.rows, o.pk = 2 ∧ o.status = .placed := by
    decide +kernel
  obtain ⟨o, ho, hpk, hst⟩ := hex
  have hpack := (stock_conserved hrun).1 o ho hst (Shop.runtime 7) (by decide +kernel) none
  rw [hpk] at hpack
  exact ⟨by decide +kernel, hpack⟩

end SwedeSweets
