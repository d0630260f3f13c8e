import SwedeSweets.Business.DraftMutations
import SwedeSweets.Guarantees.Stock

namespace SwedeSweets

open Relational Fallible Transition

/-!
# The guardrail on a draft

`maxQuantityPerProductPerOrder` bounds the units of a product on a draft, over all its lines.
Catalog additions and changes of a line count these lines; an addition of a product counts its
own line only.  `draft_product_limit`: the bound is kept by every call, except such an addition
that takes the lines together past it.
-/

variable {rt : Runtime} {db db' : Db} {k : ℕ}

/-- Every product is within the guardrail, over all lines of the order. -/
def Limited (db : Db) (k : ℕ) : Prop := ∀ p, db.productUnits k p ≤ maxQuantityPerProductPerOrder

/-! ### Runs -/

/-- A product that is added to the draft stays within the guardrail over all lines of the
    draft. -/
def DraftMutation.WithinLimit (rt : Runtime) (db : Db) (k : ℕ) : DraftMutation → Prop
  | .line (.addProduct customer product quantity) =>
      (LineMutation.addProduct customer product quantity).OnDraft rt db k →
        db.productUnits k product.pk + quantity ≤ maxQuantityPerProductPerOrder
  | _ => True

inductive DraftMove where
  | call (rt : Runtime) (m : DraftMutation)
  | elsewhere

/-- A call that is committed or rolled back, or anything that leaves the lines of the draft. -/
inductive DraftStep (k : ℕ) : Db → DraftMove → Db → Prop where
  | call {db : Db} (rt : Runtime) (m : DraftMutation) :
      DraftStep k db (.call rt m) (db.commit (m.run rt db))
  | elsewhere {db db' : Db} (lines : db'.orderLines k = db.orderLines k) :
      DraftStep k db .elsewhere db'

def DraftMove.WithinLimit (db : Db) (k : ℕ) : DraftMove → Prop
  | .call rt m => m.WithinLimit rt db k
  | .elsewhere => True

/-! ### One call -/

/-- A call is about one draft. -/
theorem LineMutation.OnDraft.unique {m : LineMutation} {k' : ℕ} (h : m.OnDraft rt db k)
    (h' : m.OnDraft rt db k') : k = k' := by
  cases m with
  | addCatalogOffer _ _ _ _ =>
    obtain ⟨r, hr, rfl⟩ := h
    obtain ⟨r', hr', rfl⟩ := h'
    rw [Except.ok.inj (hr.symm.trans hr')]
  | addProduct _ _ _ =>
    obtain ⟨r, hr, rfl⟩ := h
    obtain ⟨r', hr', rfl⟩ := h'
    rw [Except.ok.inj (hr.symm.trans hr')]
  | setLine _ _ _ => exact h.symm.trans h'
  | setProduct _ _ _ => exact h.symm.trans h'

namespace Wrote

variable {m : LineMutation} {old : Option OrderLine} {new : OrderLine}

/-- The product of the line gains what the line gains. -/
theorem units_after (h : Wrote rt db m k old new db') :
    db'.productUnits k new.productId
      = db.productUnits k new.productId - Business.lineQuantity old.toList + m.requested old := by
  have hunits := h.write.productUnits rfl k new.productId
  rw [if_pos ⟨rfl, rfl⟩, if_pos ⟨rfl, rfl⟩, h.units] at hunits
  omega

/-- Other products, and other orders, have the units they had. -/
theorem units_other (h : Wrote rt db m k old new db') {k' p : ℕ}
    (hne : ¬(k = k' ∧ new.productId = p)) : db'.productUnits k' p = db.productUnits k' p := by
  have hunits := h.write.productUnits rfl k' p
  rwa [if_neg hne, if_neg hne, add_zero, add_zero] at hunits

/-- The guardrail is kept iff the product of the line stays within it. -/
theorem limited_iff (h : Wrote rt db m k old new db') (hdb : Limited db k) :
    Limited db' k ↔ db.productUnits k new.productId - Business.lineQuantity old.toList
      + m.requested old ≤ maxQuantityPerProductPerOrder := by
  rw [← h.units_after]
  refine ⟨fun hall => hall _, fun hproduct p => ?_⟩
  by_cases hp : new.productId = p
  · rw [← hp]
    exact hproduct
  · rw [h.units_other (fun hc => hp hc.2)]
    exact hdb p

end Wrote

/-- **One call.** The guardrail is kept iff no product was added past it. -/
theorem DraftMutation.limited_iff {m : DraftMutation} (hdb : Limited db k)
    (hok : m.run rt db = .ok db') : Limited db' k ↔ m.WithinLimit rt db k := by
  cases m with
  | removeLine orderPk orderLineId =>
    have hdeleted : db' = db.deleteLines [orderLineId] := Business.removeDraftLine_eq_ok hok
    subst hdeleted
    exact iff_of_true (fun p => (productUnits_deleteLines _ k p).trans (hdb p)) trivial
  | removeProduct orderPk productId =>
    obtain ⟨lineId, rfl⟩ := removeProduct_eq_ok hok
    exact iff_of_true (fun p => (productUnits_deleteLines _ k p).trans (hdb p)) trivial
  | line m =>
    obtain ⟨k', old, new, hw⟩ := LineMutation.wrote hok
    by_cases hk : k = k'
    · subst hk
      rw [hw.limited_iff hdb]
      cases m with
      | addProduct customer product quantity =>
        -- the call compared its own line with the guardrail
        have hproduct : new.productId = product.pk := hw.named.1
        have hsum : db.productUnits k new.productId - Business.lineQuantity old.toList
            + (LineMutation.addProduct customer product quantity).requested old
              = db.productUnits k product.pk + quantity := by
          rw [LineMutation.requested, hproduct]
          omega
        rw [hsum]
        exact ⟨fun hle _ => hle, fun hle => hle hw.onDraft⟩
      | addCatalogOffer _ _ _ _ => exact iff_of_true (hw.limit rfl) trivial
      | setLine _ _ _ => exact iff_of_true (hw.limit rfl) trivial
      | setProduct _ _ _ => exact iff_of_true (hw.limit rfl) trivial
    · -- the call is about another draft
      have hother : Limited db' k := fun p => (hw.units_other (fun hc => hk hc.1.symm)).le.trans (hdb p)
      refine iff_of_true hother ?_
      cases m with
      | addProduct customer product quantity =>
        exact fun honDraft => absurd (honDraft.unique hw.onDraft) hk
      | addCatalogOffer _ _ _ _ => trivial
      | setLine _ _ _ => trivial
      | setProduct _ _ _ => trivial

/-- A step within the limit keeps the draft within it. -/
theorem DraftStep.limited {mv : DraftMove} (hdb : Limited db k) (hlimit : mv.WithinLimit db k)
    (h : DraftStep k db mv db') : Limited db' k := by
  cases h with
  | call rt m => exact Db.commit_of (fun _ hok => (m.limited_iff hdb hok).mpr hlimit) hdb
  | elsewhere lines =>
    intro p
    show Business.lineQuantity ((db'.orderLines k).filter _) ≤ _
    rw [lines]
    exact hdb p

/-- **Every run.** On a draft that starts empty the guardrail is kept in every state, as long as
    no product was added past it; and from there the next call keeps it iff it does not do so. -/
theorem draft_product_limit (hempty : db.orderLines k = []) {ms : List DraftMove}
    (hrun : Run (fun s mv t => DraftMove.WithinLimit s k mv ∧ DraftStep k s mv t) db ms db') :
    (∀ p, db'.productUnits k p ≤ maxQuantityPerProductPerOrder) ∧
      ∀ (rt : Runtime) (m : DraftMutation) (db'' : Db), m.run rt db' = .ok db'' →
        ((∀ p, db''.productUnits k p ≤ maxQuantityPerProductPerOrder) ↔ m.WithinLimit rt db' k) := by
  have hstart : Limited db k := by
    intro p
    unfold Db.productUnits
    rw [hempty, List.filter_nil, Business.lineQuantity_nil]
    decide
  have hend : Limited db' k :=
    hrun.invariant_of (fun _ _ _ hs hgood hstep => hstep.limited hs hgood) hstart
  exact ⟨hend, fun rt m db'' hok => m.limited_iff hend hok⟩

namespace Shop

/-- The shop with two thousand units on its batch. -/
def warehouse : Db :=
  (State.init.after
    [ (runtime 0, .catalog products offers areas),
      (runtime 0, .createBatch 1 2000 30 "Shelf" (some "B") none false none) ]).db

/-- A thousand units chosen from the catalog. -/
def fillDraft : DraftMutation := .line (.addCatalogOffer 7 product 1 1000)

/-- One more unit, added as a product. -/
def topUp : DraftMutation := .line (.addProduct 7 product 1)

def filled : Db := warehouse.commit (fillDraft.run (runtime 1) warehouse)

def toppedUp : Db := filled.commit (topUp.run (runtime 2) filled)

end Shop

/-- **Past the guardrail.** Both calls return, and the draft has 1001 units of the product. -/
theorem draft_past_limit :
    Shop.warehouse.orderLines 1 = [] ∧
      Run (DraftStep 1) Shop.warehouse
        [.call (Shop.runtime 1) Shop.fillDraft, .call (Shop.runtime 2) Shop.topUp] Shop.toppedUp ∧
      (Shop.fillDraft.run (Shop.runtime 1) Shop.warehouse).isOk = true ∧
      (Shop.topUp.run (Shop.runtime 2) Shop.filled).isOk = true ∧
      Shop.toppedUp.productUnits 1 1 = 1001 ∧
      maxQuantityPerProductPerOrder < Shop.toppedUp.productUnits 1 1 := by
  have hrun : Run (DraftStep 1) Shop.warehouse
      [.call (Shop.runtime 1) Shop.fillDraft, .call (Shop.runtime 2) Shop.topUp] Shop.toppedUp :=
    (Run.single (DraftStep.call (Shop.runtime 1) Shop.fillDraft)).append
      (Run.single (DraftStep.call (Shop.runtime 2) Shop.topUp))
  exact ⟨by decide +kernel, hrun, by decide +kernel, by decide +kernel, by decide +kernel,
    by decide +kernel⟩

/-- The draft with a thousand units is within the guardrail. -/
theorem draft_product_limit_warehouse :
    (∀ p, Shop.filled.productUnits 1 p ≤ maxQuantityPerProductPerOrder) ∧
      ∀ (rt : Runtime) (m : DraftMutation) (db'' : Db), m.run rt Shop.filled = .ok db'' →
        ((∀ p, db''.productUnits 1 p ≤ maxQuantityPerProductPerOrder)
          ↔ m.WithinLimit rt Shop.filled 1) := by
  have hempty : Shop.warehouse.orderLines 1 = [] := by decide +kernel
  have hstep : DraftStep 1 Shop.warehouse (.call (Shop.runtime 1) Shop.fillDraft) Shop.filled :=
    DraftStep.call (Shop.runtime 1) Shop.fillDraft
  have hlimit : DraftMove.WithinLimit Shop.warehouse 1 (.call (Shop.runtime 1) Shop.fillDraft) :=
    trivial
  exact draft_product_limit hempty (Run.single ⟨hlimit, hstep⟩)

end SwedeSweets
