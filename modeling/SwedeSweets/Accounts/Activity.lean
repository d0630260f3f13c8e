import SwedeSweets.Customers.Models
import SwedeSweets.Database
import SwedeSweets.Lib.TopN
import SwedeSweets.Products.Catalog

namespace SwedeSweets

open Relational

/-!
# The activity feed

A stamp of a row, an actor and a time, is an event of that actor.  Each domain lists the newest
events of an actor over the stamps of its rows (`listActivityForActor`), and
`listAccountActivities` merges what the four domains list.
-/

/-! ### The activity of one domain -/

/-- A stamp: the two fields it is kept in, and the kind of event it stands for. -/
structure ActivitySpec (α K : Type) where
  actor : α → Option ℕ
  occurredAt : α → Option Time
  kind : K

structure Activity (α K : Type) where
  occurredAt : Time
  kind : K
  target : α
  deriving DecidableEq, Repr

/-- `ORDER BY -field`: rows with equal values stand in any order. -/
structure NewestFirst (α : Type) where
  arrange : (α → Time) → List α → List α
  perm : ∀ field xs, (arrange field xs).Perm xs
  descending : ∀ field xs, Descending field (arrange field xs)

namespace ActivitySpec

variable {α K : Type} [Row α]

/-- The time of the stamp, on a row that has it. -/
def time (spec : ActivitySpec α K) (row : α) : Time := (spec.occurredAt row).getD 0

/-- `filter(actor_field=actor, occurred_at_field__isnull=False)`. -/
def rows (spec : ActivitySpec α K) (table : Table α) (actor : ℕ) : List α :=
  table.select (fun row => spec.actor row = some actor ∧ spec.occurredAt row ≠ none)

def activity (spec : ActivitySpec α K) (row : α) : Activity α K := ⟨spec.time row, spec.kind, row⟩

end ActivitySpec

/-- `sorted(..., key=occurred_at, reverse=True)`, which is stable. -/
def sortNewestFirst {α K : Type} (activities : List (Activity α K)) : List (Activity α K) :=
  sortDescending Activity.occurredAt activities

/-- The newest events of an actor; each query has an order of its own. -/
def listActivityForActor {α K : Type} [Row α] (order : K → NewestFirst α)
    (specs : List (ActivitySpec α K)) (table : Table α) (actor limit : ℕ) : List (Activity α K) :=
  (sortNewestFirst (specs.flatMap (fun spec =>
    (((order spec.kind).arrange spec.time (spec.rows table actor)).take limit).map
      spec.activity))).take limit

/-! ### The domains -/

inductive OrderActivityKind where
  | placed | packed | delivered | cancelled | edited
  deriving DecidableEq, Repr

def orderActivitySpecs : List (ActivitySpec Order OrderActivityKind) :=
  [⟨Order.placedBy, Order.placedAt, .placed⟩, ⟨Order.packedBy, Order.packedAt, .packed⟩,
    ⟨Order.deliveredBy, Order.deliveredAt, .delivered⟩,
    ⟨Order.cancelledBy, Order.cancelledAt, .cancelled⟩, ⟨Order.editedBy, Order.editedAt, .edited⟩]

inductive ProductActivityKind where
  | created | edited | activated | deactivated
  deriving DecidableEq, Repr

def productActivitySpecs : List (ActivitySpec ProductRow ProductActivityKind) :=
  [⟨ProductRow.createdBy, fun p => some p.createdAt, .created⟩,
    ⟨ProductRow.editedBy, ProductRow.editedAt, .edited⟩,
    ⟨ProductRow.activatedBy, ProductRow.activatedAt, .activated⟩,
    ⟨ProductRow.deactivatedBy, ProductRow.deactivatedAt, .deactivated⟩]

inductive InventoryActivityKind where
  | added | edited | closed
  deriving DecidableEq, Repr

def inventoryActivitySpecs : List (ActivitySpec InventoryBatch InventoryActivityKind) :=
  [⟨InventoryBatch.createdBy, fun b => some b.createdAt, .added⟩,
    ⟨InventoryBatch.editedBy, InventoryBatch.editedAt, .edited⟩,
    ⟨InventoryBatch.closedBy, InventoryBatch.closedAt, .closed⟩]

inductive CustomerActivityKind where
  | created | edited | activated | deactivated
  deriving DecidableEq, Repr

def customerActivitySpecs : List (ActivitySpec Customer CustomerActivityKind) :=
  [⟨Customer.createdBy, fun c => some c.createdAt, .created⟩,
    ⟨Customer.editedBy, Customer.editedAt, .edited⟩,
    ⟨Customer.activatedBy, Customer.activatedAt, .activated⟩,
    ⟨Customer.deactivatedBy, Customer.deactivatedAt, .deactivated⟩]

/-- The tables with stamps. -/
structure StampedTables where
  orders : Table Order
  products : Table ProductRow
  batches : Table InventoryBatch
  customers : Table Customer

/-- The orders in which the database returns rows with equal stamps. -/
structure QueryOrders where
  orders : OrderActivityKind → NewestFirst Order
  products : ProductActivityKind → NewestFirst ProductRow
  batches : InventoryActivityKind → NewestFirst InventoryBatch
  customers : CustomerActivityKind → NewestFirst Customer

section

variable (query : QueryOrders) (tables : StampedTables) (actor limit : ℕ)

def listOrderActivityForActor : List (Activity Order OrderActivityKind) :=
  listActivityForActor query.orders orderActivitySpecs tables.orders actor limit

def listProductActivityForActor : List (Activity ProductRow ProductActivityKind) :=
  listActivityForActor query.products productActivitySpecs tables.products actor limit

def listInventoryActivityForActor : List (Activity InventoryBatch InventoryActivityKind) :=
  listActivityForActor query.batches inventoryActivitySpecs tables.batches actor limit

def listCustomerActivityForActor : List (Activity Customer CustomerActivityKind) :=
  listActivityForActor query.customers customerActivitySpecs tables.customers actor limit

end

/-! ### The account -/

inductive AccountActivityKind where
  | orderPlaced | orderPacked | orderDelivered | orderCancelled | orderEdited
  | productCreated | productEdited | productActivated | productDeactivated
  | inventoryAdded | inventoryEdited | inventoryClosed
  | customerCreated | customerEdited | customerActivated | customerDeactivated
  deriving DecidableEq, Repr

/-- The row an event is about. -/
inductive ActivityTarget where
  | order (order : Order)
  | product (product : ProductRow)
  | batch (batch : InventoryBatch)
  | customer (customer : Customer)
  deriving DecidableEq, Repr

abbrev AccountActivity := Activity ActivityTarget AccountActivityKind

def OrderActivityKind.accountKind : OrderActivityKind → AccountActivityKind
  | .placed => .orderPlaced
  | .packed => .orderPacked
  | .delivered => .orderDelivered
  | .cancelled => .orderCancelled
  | .edited => .orderEdited

def ProductActivityKind.accountKind : ProductActivityKind → AccountActivityKind
  | .created => .productCreated
  | .edited => .productEdited
  | .activated => .productActivated
  | .deactivated => .productDeactivated

def InventoryActivityKind.accountKind : InventoryActivityKind → AccountActivityKind
  | .added => .inventoryAdded
  | .edited => .inventoryEdited
  | .closed => .inventoryClosed

def CustomerActivityKind.accountKind : CustomerActivityKind → AccountActivityKind
  | .created => .customerCreated
  | .edited => .customerEdited
  | .activated => .customerActivated
  | .deactivated => .customerDeactivated

/-- An event of a domain, as an event of the account. -/
def Activity.ofDomain {α K : Type} (kind : K → AccountActivityKind) (target : α → ActivityTarget)
    (activity : Activity α K) : AccountActivity :=
  ⟨activity.occurredAt, kind activity.kind, target activity.target⟩

def accountActivityLimit : ℕ := 24

section

variable (query : QueryOrders) (tables : StampedTables) (user limit : ℕ)

def orderActivities : List AccountActivity :=
  (listOrderActivityForActor query tables user limit).map (.ofDomain OrderActivityKind.accountKind .order)

def productActivities : List AccountActivity :=
  (listProductActivityForActor query tables user limit).map
    (.ofDomain ProductActivityKind.accountKind .product)

def inventoryActivities : List AccountActivity :=
  (listInventoryActivityForActor query tables user limit).map
    (.ofDomain InventoryActivityKind.accountKind .batch)

def customerActivities : List AccountActivity :=
  (listCustomerActivityForActor query tables user limit).map
    (.ofDomain CustomerActivityKind.accountKind .customer)

/-- The merge, at any limit. -/
def mergeAccountActivities : List AccountActivity :=
  (sortNewestFirst (orderActivities query tables user limit ++ productActivities query tables user limit
    ++ inventoryActivities query tables user limit
    ++ customerActivities query tables user limit)).take limit

def listAccountActivities : List AccountActivity :=
  mergeAccountActivities query tables user accountActivityLimit

end

end SwedeSweets
