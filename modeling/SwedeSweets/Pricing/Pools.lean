import SwedeSweets.Pricing.Selectors

namespace SwedeSweets

open Relational

/-!
# The pools of one channel

The pools `listOrderableBatchesForOffer` returns for the offers of one channel and currency,
over offers that obey the constraints of their table (`OfferConstraints`): `pool_iff` says
what a batch of a pool satisfies, and by `pools_disjoint` no batch lies in two of them.
-/

/-- The unique constraints of the offer table, and its check on a batch offer's product. -/
structure OfferConstraints (db : Db) : Prop where
  uniqueProductPrice : ∀ o ∈ db.commercialPrices, ∀ o' ∈ db.commercialPrices, o.batchId = none →
    o'.batchId = none → o.productId = o'.productId → o.channel = o'.channel → o = o'
  uniqueBatchPrice : ∀ o ∈ db.commercialPrices, ∀ o' ∈ db.commercialPrices, o.batchId ≠ none →
    o.batchId = o'.batchId → o.channel = o'.channel → o = o'
  batchProduct : ∀ o ∈ db.commercialPrices, ∀ b ∈ db.batches, o.batchId = some b.pk →
    b.productId = o.productId

instance (db : Db) : Decidable (OfferConstraints db) :=
  decidable_of_iff
    ((∀ o ∈ db.commercialPrices, ∀ o' ∈ db.commercialPrices, o.batchId = none → o'.batchId = none →
        o.productId = o'.productId → o.channel = o'.channel → o = o')
      ∧ (∀ o ∈ db.commercialPrices, ∀ o' ∈ db.commercialPrices, o.batchId ≠ none →
        o.batchId = o'.batchId → o.channel = o'.channel → o = o')
      ∧ ∀ o ∈ db.commercialPrices, ∀ b ∈ db.batches, o.batchId = some b.pk →
        b.productId = o.productId)
    ⟨fun ⟨hproduct, hbatch, hof⟩ => ⟨hproduct, hbatch, hof⟩,
      fun h => ⟨h.uniqueProductPrice, h.uniqueBatchPrice, h.batchProduct⟩⟩

variable {rt : Runtime} {db : Db} {currency : Currency}

/-- A batch is left out of the product-wide pools of a channel iff it has an enabled offer of
    its own there, priced in the currency. -/
theorem isExcludedBatch_iff {channel : Channel} {k : ℕ} :
    isExcludedBatch db channel currency k = true ↔
      ∃ o ∈ db.commercialPrices, o.channel = channel ∧ o.enabled = true
        ∧ o.hasAmount currency = true ∧ o.batchId = some k := by
  unfold isExcludedBatch
  rw [List.any_eq_true]
  simp only [Bool.and_eq_true, decide_eq_true_eq, and_assoc]
  rfl

/-- A batch of a pool is orderable, and the offer's own or an ordinary one of its product. -/
theorem pool_iff {o : CommercialPrice} {b : InventoryBatch} :
    listOrderableBatchesForOffer rt db o currency b = true ↔
      o.enabled = true ∧ productActive db o.productId = true ∧ isOrderable rt.today b = true
        ∧ (o.batchId = some b.pk ∨ (o.batchId = none ∧ b.productId = o.productId
            ∧ isExcludedBatch db o.channel currency b.pk = false)) := by
  unfold listOrderableBatchesForOffer
  -- A disabled offer and an inactive product have no pool.
  by_cases hoff : (!o.enabled || !productActive db o.productId) = true
  · rw [if_pos hoff]
    simp only [Bool.or_eq_true, Bool.not_eq_true'] at hoff
    rcases hoff with hoff | hoff <;> simp [hoff, BatchQuery.none]
  · rw [if_neg hoff]
    simp only [Bool.or_eq_true, Bool.not_eq_true', not_or, Bool.not_eq_false] at hoff
    -- A batch offer sells its batch; a product-wide one all batches that are not excluded.
    cases hk : o.batchId with
    | some k =>
      simp only [hoff, Bool.and_eq_true, decide_eq_true_eq, Option.some.injEq, reduceCtorEq,
        false_and, or_false, true_and]
      rw [and_comm, eq_comm (a := b.pk)]
    | none =>
      simp only [hoff, listOrderableBatchesForProduct, Bool.and_eq_true, Bool.not_eq_true',
        decide_eq_true_eq, reduceCtorEq, false_or, true_and]
      rw [and_right_comm, and_comm]

/-- The offer is product-wide, or priced in the currency. -/
def CommercialPrice.Poolable (o : CommercialPrice) (currency : Currency) : Prop :=
  o.batchId = none ∨ o.hasAmount currency = true

/-- **Disjoint.** A batch lies in the pool of one offer of a channel at most. -/
theorem pools_disjoint (h : OfferConstraints db) {o o' : CommercialPrice}
    (ho : o ∈ db.commercialPrices) (ho' : o' ∈ db.commercialPrices) (hch : o.channel = o'.channel)
    (hp : o.Poolable currency) (hp' : o'.Poolable currency) {b : InventoryBatch}
    (hq : listOrderableBatchesForOffer rt db o currency b = true)
    (hq' : listOrderableBatchesForOffer rt db o' currency b = true) : o = o' := by
  obtain ⟨hen, -, -, hscope⟩ := pool_iff.mp hq
  obtain ⟨hen', -, -, hscope'⟩ := pool_iff.mp hq'
  -- an enabled batch offer keeps its batch out of the product-wide pool
  have hexcludes : ∀ x ∈ db.commercialPrices, ∀ y : CommercialPrice, x.channel = y.channel →
      x.enabled = true → x.Poolable currency → x.batchId = some b.pk →
      isExcludedBatch db y.channel currency b.pk = true := by
    intro x hx y hxy hxen hxp hxb
    have hpriced : x.hasAmount currency = true := hxp.resolve_left (by rw [hxb]; simp)
    exact isExcludedBatch_iff.mpr ⟨x, hx, hxy, hxen, hpriced, hxb⟩
  rcases hscope with hb | ⟨hstd, hproduct, hin⟩ <;> rcases hscope' with hb' | ⟨hstd', hproduct', hin'⟩
  · exact h.uniqueBatchPrice o ho o' ho' (by rw [hb]; simp) (hb.trans hb'.symm) hch
  · rw [hexcludes o ho o' hch hen hp hb] at hin'
    cases hin'
  · rw [hexcludes o' ho' o hch.symm hen' hp' hb'] at hin
    cases hin
  · exact h.uniqueProductPrice o ho o' ho' hstd hstd' (hproduct.symm.trans hproduct') hch

/-- A product is active when an active row has its key. -/
theorem productActive_iff {p : ℕ} :
    productActive db p = true ↔ ∃ product ∈ db.products, product.pk = p ∧ product.active = true := by
  unfold productActive
  rw [Option.any_eq_true]
  constructor
  · rintro ⟨product, hget, hactive⟩
    obtain ⟨hmem, hpk⟩ := Table.get?_eq_some.mp hget
    exact ⟨product, hmem, hpk, hactive⟩
  · rintro ⟨product, hmem, hpk, hactive⟩
    exact ⟨product, Table.get?_eq_some.mpr ⟨hmem, hpk⟩, hactive⟩

/-- A batch of a pool is of the offer's product. -/
theorem OfferConstraints.productId_of_pool (h : OfferConstraints db) {o : CommercialPrice}
    (ho : o ∈ db.commercialPrices) {b : InventoryBatch} (hb : b ∈ db.batches)
    (hq : listOrderableBatchesForOffer rt db o currency b = true) : b.productId = o.productId := by
  obtain ⟨-, -, -, hbatch | ⟨-, hproduct, -⟩⟩ := pool_iff.mp hq
  · exact h.batchProduct o ho b hb hbatch
  · exact hproduct

end SwedeSweets
