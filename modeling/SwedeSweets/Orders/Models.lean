import SwedeSweets.Catalog
import SwedeSweets.Columns

namespace SwedeSweets

open Relational Fallible

/-!
# Orders and what hangs on them

The rows of the order tables: `Order` and its lifecycle, `OrderLine`, `Allocation` (a
batch-level stock reservation), `PaymentAttempt`, and the retail rows
`RetailCheckoutSession` and `RetailPostalArea`.  A check constraint of a table is a proof
field of its row type.  The one-to-one selections of a line (`RetailOfferSelection`,
`BusinessOfferSelection`) are fields of the line.
-/

inductive OrderStatus where
  | draft | placed | packed | delivered | cancelled
  deriving DecidableEq, Repr

structure Order where
  pk : ℕ
  channel : Channel
  currency : Currency
  customerId : Option ℕ
  status : OrderStatus
  createdAt : Time
  editedAt : Option Time
  editedBy : Option ℕ
  placedAt : Option Time
  placedBy : Option ℕ
  packedAt : Option Time
  packedBy : Option ℕ
  deliveredAt : Option Time
  deliveredBy : Option ℕ
  cancelledAt : Option Time
  cancelledBy : Option ℕ
  cancelReason : String
  cancelNote : String
  deriving DecidableEq, Repr

instance : Row Order := ⟨Order.pk⟩

@[simp] theorem pk_order (o : Order) : Row.pk o = o.pk := rfl

structure OrderLine where
  pk : ℕ
  orderId : ℕ
  productId : ℕ
  quantityInUnits : ℕ
  unitPriceSnapshot : Option Cents
  commercialOfferId : ℕ
  /-- The commercial price of the line's `RetailOfferSelection`, when it has one. -/
  retailOfferSelection : Option ℕ
  /-- The commercial price of the line's `BusinessOfferSelection`, when it has one. -/
  businessOfferSelection : Option (Option ℕ)
  quantity_pos : 0 < quantityInUnits
  price_pos : ∀ c, unitPriceSnapshot = some c → 0 < c
  deriving DecidableEq

instance : Row OrderLine := ⟨OrderLine.pk⟩

@[simp] theorem pk_orderLine (l : OrderLine) : Row.pk l = l.pk := rfl

inductive AllocationStatus where
  | reserved | consumed | cancelled
  deriving DecidableEq, Repr

/-- Batch-level stock reservation of one order line. -/
structure Allocation where
  pk : ℕ
  orderId : ℕ
  orderLineId : ℕ
  batchId : ℕ
  quantity : ℕ
  status : AllocationStatus
  reservedUntil : Option Time
  quantity_pos : 0 < quantity
  deriving DecidableEq

instance : Row Allocation := ⟨Allocation.pk⟩

@[simp] theorem pk_allocation (a : Allocation) : Row.pk a = a.pk := rfl

inductive PaymentStatus where
  | pending | succeeded | failed | cancelled
  deriving DecidableEq, Repr

/-- One attempt to pay for an order.  The only provider is SumUp. -/
@[ext]
structure PaymentAttempt where
  pk : ℕ
  orderId : ℕ
  status : PaymentStatus
  providerPaymentId : String
  providerTransactionId : String
  amount : Cents
  currency : Currency
  amount_pos : 0 < amount

instance : DecidableEq PaymentAttempt := fun _ _ => decidable_of_iff' _ PaymentAttempt.ext_iff

instance : Row PaymentAttempt := ⟨PaymentAttempt.pk⟩

@[simp] theorem pk_paymentAttempt (a : PaymentAttempt) : Row.pk a = a.pk := rfl

/-- Short-lived ownership of a retail checkout. -/
structure RetailCheckoutSession where
  pk : ℕ
  orderId : ℕ
  expiresAt : Time
  deriving DecidableEq, Repr

instance : Row RetailCheckoutSession := ⟨RetailCheckoutSession.pk⟩

/-- A destination where retail orders may be delivered. -/
structure RetailPostalArea where
  pk : ℕ
  countryCode : String
  postalCode : String
  city : String
  enabled : Bool
  deriving DecidableEq, Repr

instance : Row RetailPostalArea := ⟨RetailPostalArea.pk⟩

/-! ### Order lifecycle -/

namespace Order

/-- `ALLOWED_TRANSITIONS`. -/
def allowedTransitions : OrderStatus → List OrderStatus
  | .draft => [.placed, .cancelled]
  | .placed => [.packed, .cancelled]
  | .packed => [.delivered]
  | .delivered => []
  | .cancelled => []

def canBeCancelled (self : Order) : Prop := self.status = .draft ∨ self.status = .placed

instance (self : Order) : Decidable self.canBeCancelled := by
  unfold canBeCancelled; infer_instance

def transitionTo (self : Order) (target : OrderStatus) : Result Order := do
  if self.status = target then return self
  require (target ∈ allowedTransitions self.status)
    (.invalidOrderStatusTransition ("Cannot transition order " ++ toString self.pk))
  return { self with status := target }

def maxCancelReasonLength : ℕ := 40

def markAsEdited (rt : Runtime) (self : Order) (user : Option ℕ) : Order :=
  { self with editedAt := some rt.now, editedBy := user }

def markAsPlaced (rt : Runtime) (self : Order) (user : Option ℕ) : Result Order := do
  let self ← self.transitionTo .placed
  return { self with placedAt := some rt.now, placedBy := user }

def markAsPacked (rt : Runtime) (self : Order) (user : Option ℕ) : Result Order := do
  let self ← self.transitionTo .packed
  return { self with packedAt := some rt.now, packedBy := user }

def markAsDelivered (rt : Runtime) (self : Order) (user : Option ℕ) : Result Order := do
  let self ← self.transitionTo .delivered
  return { self with deliveredAt := some rt.now, deliveredBy := user }

def cancel (rt : Runtime) (self : Order) (user : Option ℕ) (reason note : String) :
    Result Order := do
  let self ← self.transitionTo .cancelled
  requireFits maxCancelReasonLength reason
  requireText (Text.strip note)
  return { self with
    cancelledAt := some rt.now
    cancelledBy := user
    cancelReason := reason
    cancelNote := Text.strip note }

/-- A transition succeeds iff the order is already there or the target is allowed. -/
theorem transitionTo_eq_ok {self o : Order} {target : OrderStatus} :
    self.transitionTo target = .ok o ↔
      (self.status = target ∨ target ∈ allowedTransitions self.status)
        ∧ o = { self with status := target } := by
  unfold transitionTo
  by_cases h : self.status = target
  · subst h
    simp only [if_true, pure_eq_ok, true_or, true_and]
    exact eq_comm
  · simp only [h, if_false, bind_eq_ok, require_eq_ok, exists_const, pure_eq_ok, false_or]
    exact and_congr_right (fun _ => eq_comm)

end Order

/-! ### Lines and totals -/

/-- Price for the stock quantity on a line. -/
def OrderLine.lineTotal (l : OrderLine) : Option Cents :=
  l.unitPriceSnapshot.map (fun price => price * l.quantityInUnits)

/-- The commercial total, when every line has a price snapshot (`Order.total`). -/
def orderTotal : List OrderLine → Option Cents
  | [] => some 0
  | l :: ls => do return (← l.lineTotal) + (← orderTotal ls)

/-! ### Reservation activity -/

/-- RESERVED, and `reservedUntil` is null or lies in the future. -/
def Allocation.isActive (now : Time) (a : Allocation) : Bool :=
  a.status = .reserved && a.reservedUntil.all (fun u => now < u)

/-- The units an allocation holds on a batch at a time. -/
def Allocation.activeOn (now : Time) (batchPk : ℕ) (a : Allocation) : ℕ :=
  if a.batchId = batchPk ∧ a.isActive now = true then a.quantity else 0

/-- An active reservation was active at every earlier time. -/
theorem Allocation.isActive_mono {now later : Time} (h : now ≤ later) {a : Allocation}
    (ha : a.isActive later = true) : a.isActive now = true := by
  unfold isActive at *
  cases hu : a.reservedUntil with
  | none => simpa [hu] using ha
  | some u =>
    simp only [hu, Option.all_some, Bool.and_eq_true, decide_eq_true_eq] at ha ⊢
    exact ⟨ha.1, Nat.lt_of_le_of_lt h ha.2⟩

/-- Reservations only lapse as the clock moves on. -/
theorem Allocation.activeOn_anti {now later : Time} (h : now ≤ later) (batchPk : ℕ)
    (a : Allocation) : a.activeOn later batchPk ≤ a.activeOn now batchPk := by
  unfold activeOn
  by_cases hl : a.batchId = batchPk ∧ a.isActive later = true
  · rw [if_pos hl, if_pos ⟨hl.1, isActive_mono h hl.2⟩]
  · rw [if_neg hl]
    exact Nat.zero_le _

end SwedeSweets
