import SwedeSweets.Database

namespace SwedeSweets

open Relational

/-!
# Orderable batches

A queryset of batches is an unevaluated filter, `BatchQuery`; whoever runs it selects the
rows that satisfy it from the table as it then is.
-/

/-- A queryset over the batch table. -/
abbrev BatchQuery := InventoryBatch → Bool

/-- `QuerySet.none()`. -/
def BatchQuery.none : BatchQuery := fun _ => false

/-- Days before `best_before` from which a batch is no longer orderable. -/
def orderableBeforeExpiryDays : ℕ := 0

def orderableBestBeforeCutoff (today : Date) : Date := today + orderableBeforeExpiryDays

/-- ACTIVE, with stock, and not too close to its best-before date. -/
def isOrderable (today : Date) : BatchQuery := fun b =>
  b.status = .active && 0 < b.quantity && orderableBestBeforeCutoff today < b.bestBefore

/-- Physical batches eligible for normal order reservation. -/
def listOrderableBatchesForProduct (today : Date) (productId : ℕ) : BatchQuery := fun b =>
  b.productId = productId && isOrderable today b

/-- Orderable, as a proposition: ACTIVE, in stock, best before later than the cut-off. -/
theorem isOrderable_iff {today : Date} {b : InventoryBatch} :
    isOrderable today b = true ↔
      b.status = .active ∧ 0 < b.quantity ∧ orderableBestBeforeCutoff today < b.bestBefore := by
  simp [isOrderable, and_assoc]

end SwedeSweets
