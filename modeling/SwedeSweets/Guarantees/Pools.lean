import SwedeSweets.Guarantees.Catalog
import SwedeSweets.Pricing.Pools

namespace SwedeSweets

open Relational

/-!
# Offer pools partition stock

`offer_pools_partition`: every orderable batch of a product lies in exactly one of the pools
the product is sold through in a channel and currency, that of its own offer if it has one
there, else the product-wide pool.
-/

variable {rt : Runtime} {db : Db} {currency : Currency}

/-- The enabled offers a product is sold through in a channel and currency: its standard offer,
    and its batch offers that are priced. -/
structure SoldThrough (db : Db) (productId : ℕ) (channel : Channel) (currency : Currency)
    (o : CommercialPrice) : Prop where
  mem : o ∈ db.commercialPrices
  ofProduct : o.productId = productId
  ofChannel : o.channel = channel
  enabled : o.enabled = true
  poolable : o.Poolable currency

/-- **Pools.** For an active product whose standard offer is enabled: the pools of the offers it
    is sold through hold its orderable batches only, every such batch lies in exactly one of
    them, and it is left out of the product-wide pool iff it has an enabled and priced offer of
    its own in that channel. -/
theorem offer_pools_partition (h : OfferConstraints db) {channel : Channel} {p : Product}
    (hp : p ∈ db.products) (hactive : p.active = true) {standard : CommercialPrice}
    (hstandard : SoldThrough db p.pk channel currency standard) (hwide : standard.batchId = none) :
    (∀ b ∈ db.batches, listOrderableBatchesForProduct rt.today p.pk b = true →
      ∃! o, SoldThrough db p.pk channel currency o
        ∧ listOrderableBatchesForOffer rt db o currency b = true) ∧
    (∀ o o', SoldThrough db p.pk channel currency o → SoldThrough db p.pk channel currency o' →
      o ≠ o' → ∀ b ∈ db.batches, ¬ (listOrderableBatchesForOffer rt db o currency b = true
        ∧ listOrderableBatchesForOffer rt db o' currency b = true)) ∧
    (∀ o, SoldThrough db p.pk channel currency o → ∀ b ∈ db.batches,
      listOrderableBatchesForOffer rt db o currency b = true →
        listOrderableBatchesForProduct rt.today p.pk b = true) ∧
    (∀ b ∈ db.batches, listOrderableBatchesForProduct rt.today p.pk b = true →
      (listOrderableBatchesForOffer rt db standard currency b = false ↔
        ∃ o ∈ db.commercialPrices, o.channel = channel ∧ o.enabled = true
          ∧ o.hasAmount currency = true ∧ o.batchId = some b.pk)) := by
  have hlive : productActive db p.pk = true := productActive_iff.mpr ⟨p, hp, rfl, hactive⟩
  have horderable : ∀ {b : InventoryBatch}, listOrderableBatchesForProduct rt.today p.pk b = true ↔
      b.productId = p.pk ∧ isOrderable rt.today b = true := by
    intro b
    simp [listOrderableBatchesForProduct]
  have hdisjoint : ∀ {o o' : CommercialPrice}, SoldThrough db p.pk channel currency o →
      SoldThrough db p.pk channel currency o' → ∀ {b : InventoryBatch},
      listOrderableBatchesForOffer rt db o currency b = true →
      listOrderableBatchesForOffer rt db o' currency b = true → o = o' :=
    fun ho ho' _ => pools_disjoint h ho.mem ho'.mem (ho.ofChannel.trans ho'.ofChannel.symm)
      ho.poolable ho'.poolable
  -- The standard offer sells every orderable batch that is not excluded.
  have hstd : ∀ {b : InventoryBatch}, listOrderableBatchesForProduct rt.today p.pk b = true →
      (listOrderableBatchesForOffer rt db standard currency b = true ↔
        isExcludedBatch db channel currency b.pk = false) := by
    intro b hb
    obtain ⟨hproduct, hord⟩ := horderable.mp hb
    rw [pool_iff, hstandard.ofChannel, hstandard.ofProduct]
    simp [hstandard.enabled, hlive, hord, hwide, hproduct]
  refine ⟨fun b hb hq => ?_, fun o o' ho ho' hne b _ hboth => hne (hdisjoint ho ho' hboth.1 hboth.2),
    fun o ho b hb hq => ?_, fun b hb hq => ?_⟩
  · by_cases hexcluded : isExcludedBatch db channel currency b.pk = true
    · -- the batch is sold through its own offer
      obtain ⟨o, ho, hch, hen, hpriced, hbatch⟩ := isExcludedBatch_iff.mp hexcluded
      have hsold : SoldThrough db p.pk channel currency o :=
        ⟨ho, (h.batchProduct o ho b hb hbatch).symm.trans (horderable.mp hq).1, hch, hen,
          Or.inr hpriced⟩
      have hpool : listOrderableBatchesForOffer rt db o currency b = true :=
        pool_iff.mpr ⟨hen, hsold.ofProduct ▸ hlive, (horderable.mp hq).2, Or.inl hbatch⟩
      exact ⟨o, ⟨hsold, hpool⟩, fun o' ho' => hdisjoint ho'.1 hsold ho'.2 hpool⟩
    · have hpool := (hstd hq).mpr (Bool.eq_false_iff.mpr hexcluded)
      exact ⟨standard, ⟨hstandard, hpool⟩, fun o' ho' => hdisjoint ho'.1 hstandard ho'.2 hpool⟩
  · exact horderable.mpr ⟨(h.productId_of_pool ho.mem hb hq).trans ho.ofProduct,
      isOrderable_of_offer hq⟩
  · rw [← Bool.not_eq_true, hstd hq, Bool.not_eq_false]
    exact isExcludedBatch_iff

/-- Each batch of the stall is sold through one of its two offers. -/
theorem offer_pools_partition_stall :
    Shop.stall.batches.rows.length = 2
      ∧ ∀ b ∈ Shop.stall.batches, listOrderableBatchesForProduct (Shop.runtime 4).today 1 b = true →
        ∃! o, SoldThrough Shop.stall 1 .business .eur o
          ∧ listOrderableBatchesForOffer (Shop.runtime 4) Shop.stall o .eur b = true := by
  have hp : Shop.product ∈ Shop.stall.products.rows := by decide +kernel
  have hstandard : SoldThrough Shop.stall 1 .business .eur Shop.businessOffer :=
    ⟨by show _ ∈ Shop.stall.commercialPrices.rows; decide +kernel, rfl, rfl, rfl, Or.inl rfl⟩
  exact ⟨by decide +kernel,
    (offer_pools_partition Shop.stall_offers.constraints hp rfl hstandard rfl).1⟩

end SwedeSweets
