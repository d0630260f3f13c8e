import SwedeSweets.Inventory.Batch
import SwedeSweets.Orders.Models

namespace SwedeSweets

open Relational Fallible

/-!
# The database

`Db` holds the tables.  A service is a function of the database it finds to the database
it leaves, in `Result`: a raise inside a transaction leaves nothing behind, which is what
throwing the new database away means.
-/

structure Db where
  products : Table Product
  commercialPrices : Table CommercialPrice
  batches : Table InventoryBatch
  orders : Table Order
  lines : Table OrderLine
  allocations : Table Allocation
  paymentAttempts : Table PaymentAttempt
  retailCheckouts : Table RetailCheckoutSession
  postalAreas : Table RetailPostalArea
  deriving DecidableEq

namespace Db

/-- The database before the first call. -/
def empty : Db where
  products := .empty
  commercialPrices := .empty
  batches := .empty
  orders := .empty
  lines := .empty
  allocations := .empty
  paymentAttempts := .empty
  retailCheckouts := .empty
  postalAreas := .empty

/-! ### `objects.get(pk=...)` -/

def getProduct (db : Db) (pk : ℕ) : Result Product :=
  orRaise (db.products.get? pk) (.doesNotExist "Product")

def getCommercialPrice (db : Db) (pk : ℕ) : Result CommercialPrice :=
  orRaise (db.commercialPrices.get? pk) (.doesNotExist "CommercialPrice")

def getBatch (db : Db) (pk : ℕ) : Result InventoryBatch :=
  orRaise (db.batches.get? pk) (.doesNotExist "InventoryBatch")

def getOrder (db : Db) (pk : ℕ) : Result Order :=
  orRaise (db.orders.get? pk) (.doesNotExist "Order")

def getAttempt (db : Db) (pk : ℕ) : Result PaymentAttempt :=
  orRaise (db.paymentAttempts.get? pk) (.doesNotExist "PaymentAttempt")

/-! ### Related rows -/

/-- `order.lines`, in `id` order. -/
def orderLines (db : Db) (orderPk : ℕ) : List OrderLine :=
  db.lines.select (fun l => l.orderId = orderPk)

/-- `order.allocations`, in `id` order. -/
def orderAllocations (db : Db) (orderPk : ℕ) : List Allocation :=
  db.allocations.select (fun a => a.orderId = orderPk)

/-- `order_line.allocations`, in `id` order. -/
def lineAllocations (db : Db) (linePk : ℕ) : List Allocation :=
  db.allocations.select (fun a => a.orderLineId = linePk)

/-- `order.payment_attempts`, in `id` order. -/
def orderAttempts (db : Db) (orderPk : ℕ) : List PaymentAttempt :=
  db.paymentAttempts.select (fun a => a.orderId = orderPk)

/-- The units of a batch held by active reservations. -/
def activeReserved (now : Time) (db : Db) (batchPk : ℕ) : ℕ :=
  db.allocations.total (Allocation.activeOn now batchPk)

/-- The lines of an order are the lines that name it. -/
@[simp] theorem mem_orderLines {db : Db} {o : ℕ} {l : OrderLine} :
    l ∈ db.orderLines o ↔ l ∈ db.lines ∧ l.orderId = o := by
  simp [orderLines]

/-- The allocations of an order are the allocations that name it. -/
@[simp] theorem mem_orderAllocations {db : Db} {o : ℕ} {a : Allocation} :
    a ∈ db.orderAllocations o ↔ a ∈ db.allocations ∧ a.orderId = o := by
  simp [orderAllocations]

/-- The allocations of a line are the allocations that name it. -/
@[simp] theorem mem_lineAllocations {db : Db} {l : ℕ} {a : Allocation} :
    a ∈ db.lineAllocations l ↔ a ∈ db.allocations ∧ a.orderLineId = l := by
  simp [lineAllocations]

/-- The payment attempts of an order are the attempts that name it. -/
@[simp] theorem mem_orderAttempts {db : Db} {o : ℕ} {a : PaymentAttempt} :
    a ∈ db.orderAttempts o ↔ a ∈ db.paymentAttempts ∧ a.orderId = o := by
  simp [orderAttempts]

/-- An order is found by its key. -/
theorem getOrder_eq_ok {db : Db} {pk : ℕ} {o : Order} :
    db.getOrder pk = .ok o ↔ o ∈ db.orders ∧ o.pk = pk := by
  simp [getOrder, Table.get?_eq_some]

/-- A batch is found by its key. -/
theorem getBatch_eq_ok {db : Db} {pk : ℕ} {b : InventoryBatch} :
    db.getBatch pk = .ok b ↔ b ∈ db.batches ∧ b.pk = pk := by
  simp [getBatch, Table.get?_eq_some]

/-- A payment attempt is found by its key. -/
theorem getAttempt_eq_ok {db : Db} {pk : ℕ} {a : PaymentAttempt} :
    db.getAttempt pk = .ok a ↔ a ∈ db.paymentAttempts ∧ a.pk = pk := by
  simp [getAttempt, Table.get?_eq_some]

/-- An offer is found by its key. -/
theorem getCommercialPrice_eq_ok {db : Db} {pk : ℕ} {o : CommercialPrice} :
    db.getCommercialPrice pk = .ok o ↔ o ∈ db.commercialPrices ∧ o.pk = pk := by
  simp [getCommercialPrice, Table.get?_eq_some]

/-- The reserved units of a batch only go down as the clock moves on. -/
theorem activeReserved_anti {now later : Time} (h : now ≤ later) (db : Db) (batchPk : ℕ) :
    db.activeReserved later batchPk ≤ db.activeReserved now batchPk :=
  Table.total_mono (fun a _ => a.activeOn_anti h batchPk)

end Db

end SwedeSweets
