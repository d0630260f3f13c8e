import SwedeSweets.Guarantees.Stock
import SwedeSweets.Invariants.CatalogKept
import SwedeSweets.Invariants.Offers

namespace SwedeSweets

open Relational Fallible Transition

/-!
# Pricing

* `offers_along_runs` — the offer table keeps its invariant along every run of pricing calls,
  operations of the shop and product edits, so the pools of a channel stay disjoint, as far as
  their offers are product-wide or priced in the currency (`CommercialPrice.Poolable`).
* `catalog_untouched` — orders, payments and stock leave products, offers and postal areas alone.
* `product_pricing_exact`, `batch_pricing_exact` — the pricing forms of a product and of a batch
  succeed exactly when every amount is payable (and the reason known), show afterwards what was
  entered, touch nothing else, and change nothing when they are sent again.
-/

/-! ### Runs -/

/-- A call of a pricing service. -/
inductive PricingCall where
  | createCommercialPrice (productPk : ℕ) (channel : Channel) (batchPk : Option ℕ)
      (reason : String)
  | setPriceAmount (pk : ℕ) (currency : Currency) (price : Decimal)
      (originalPrice : Option Decimal)
  | removePriceAmount (pk : ℕ) (currency : Currency)
  | setCommercialPriceReason (pk : ℕ) (reason : String)
  | setCommercialPriceEnabled (pk : ℕ) (enabled : Bool)
  | ensureStandardOffer (productPk : ℕ) (channel : Channel)
  | updateProductStandardPricing (productPk : ℕ) (business retail : ChannelPricing)
  | updateBatchSpecialPricing (batch : InventoryBatch) (reason : String)
      (business retail : ChannelPricing)

def PricingCall.run (db : Db) : PricingCall → Result Db
  | .createCommercialPrice productPk channel batchPk reason =>
      (SwedeSweets.createCommercialPrice db productPk channel batchPk reason).map Prod.fst
  | .setPriceAmount pk currency price originalPrice =>
      SwedeSweets.setPriceAmount db pk currency price originalPrice
  | .removePriceAmount pk currency => SwedeSweets.removePriceAmount db pk currency
  | .setCommercialPriceReason pk reason => SwedeSweets.setCommercialPriceReason db pk reason
  | .setCommercialPriceEnabled pk enabled => SwedeSweets.setCommercialPriceEnabled db pk enabled
  | .ensureStandardOffer productPk channel =>
      (SwedeSweets.ensureStandardOffer db productPk channel).map Prod.fst
  | .updateProductStandardPricing productPk business retail =>
      SwedeSweets.updateProductStandardPricing db productPk business retail
  | .updateBatchSpecialPricing batch reason business retail =>
      SwedeSweets.updateBatchSpecialPricing db batch reason business retail

/-- What may happen between two looks at the offers. -/
inductive PricedLabel where
  | pricing (call : PricingCall)
  | shop (rt : Runtime) (op : Op)
  | products (products : Table Product)

/-- One step: a pricing call, an operation of the shop, or an edit of the products, of which none
    is ever deleted. -/
inductive PricedStep : Db → PricedLabel → Db → Prop where
  | pricing (db : Db) (call : PricingCall) :
      PricedStep db (.pricing call) (db.commit (call.run db))
  | shop (rt : Runtime) (db : Db) {op : Op} (h : op.writesCatalog = false) :
      PricedStep db (.shop rt op) (op.exec rt db)
  | products (db : Db) {products : Table Product}
      (h : Table.Evolves (fun _ _ => True) db.products products) :
      PricedStep db (.products products) { db with products := products }

section

variable {db db' : Db}

/-- A pricing call moves offers. -/
theorem PricingCall.moves {call : PricingCall} (h : call.run db = .ok db') : OffersMove db db' := by
  cases call with
  | createCommercialPrice =>
    obtain ⟨r, hr, rfl⟩ := map_eq_ok.mp h
    exact OffersMove.createCommercialPrice hr
  | setPriceAmount => exact OffersMove.setPriceAmount h
  | removePriceAmount => exact OffersMove.removePriceAmount h
  | setCommercialPriceReason => exact OffersMove.setCommercialPriceReason h
  | setCommercialPriceEnabled => exact OffersMove.setCommercialPriceEnabled h
  | ensureStandardOffer =>
    obtain ⟨r, hr, rfl⟩ := map_eq_ok.mp h
    exact OffersMove.ensureStandardOffer hr
  | updateProductStandardPricing => exact OffersMove.updateProductStandardPricing h
  | updateBatchSpecialPricing => exact OffersMove.updateBatchSpecialPricing h

/-- One step keeps the invariant and every offer. -/
theorem PricedStep.kept {l : PricedLabel} (h : PricedStep db l db') :
    (OffersOk db → OffersOk db')
      ∧ Table.Evolves CommercialPrice.SameScope db.commercialPrices db'.commercialPrices := by
  -- Pricing moves offers; the shop and the product services leave them alone.
  cases h with
  | pricing call =>
    refine Db.commit_of (P := fun d => (OffersOk db → OffersOk d) ∧ Table.Evolves
      CommercialPrice.SameScope db.commercialPrices d.commercialPrices) (fun d hd => ?_)
      ⟨id, Table.Evolves.refl CommercialPrice.SameScope.refl _⟩
    exact ⟨(PricingCall.moves hd).kept, (PricingCall.moves hd).evolves⟩
  | shop rt db hop =>
    have hkept := Op.catalogKept hop rt db
    refine ⟨fun hok => hok.elsewhere hkept.prices ?_ hkept.batches, ?_⟩
    · rw [hkept.products]
      exact Table.Evolves.refl (fun _ => trivial) _
    · rw [hkept.prices]
      exact Table.Evolves.refl CommercialPrice.SameScope.refl _
  | products db hproducts =>
    refine ⟨fun hok => hok.elsewhere rfl hproducts ?_, ?_⟩
    · exact Table.Evolves.refl InventoryBatch.SameProduct.refl _
    · exact Table.Evolves.refl CommercialPrice.SameScope.refl _

/-- The offers stay in order through a run. -/
theorem offersOk_of_run {ls : List PricedLabel} (h : Run PricedStep db ls db') (hok : OffersOk db) :
    OffersOk db' :=
  h.invariant (fun _ _ _ hs hstep => hstep.kept.1 hs) hok

/-- **Offers along runs.** From offers that satisfy the invariant, every run leads to offers that
    do: one for each scope, of a product and a batch that exist, with a known reason, at most one
    amount for each currency, and none below its price.  No offer is lost or changes its scope, and
    no batch is in the pools of two offers of a channel that are product-wide or priced in the
    currency (`CommercialPrice.Poolable`). -/
theorem offers_along_runs {ls : List PricedLabel} (h : Run PricedStep db ls db')
    (hok : OffersOk db) :
    OffersOk db'
      ∧ Table.Evolves CommercialPrice.SameScope db.commercialPrices db'.commercialPrices
      ∧ ∀ rt currency, ∀ o ∈ db'.commercialPrices, ∀ o' ∈ db'.commercialPrices,
        o.channel = o'.channel → o.Poolable currency → o'.Poolable currency → ∀ b,
          listOrderableBatchesForOffer rt db' o currency b = true →
          listOrderableBatchesForOffer rt db' o' currency b = true → o = o' := by
  have hok' := offersOk_of_run h hok
  refine ⟨hok', ?_, ?_⟩
  · exact h.relates (fun d => Table.Evolves.refl CommercialPrice.SameScope.refl d.commercialPrices)
      (fun _ _ _ hd hd' => hd.trans CommercialPrice.SameScope.trans hd')
      (fun _ _ _ hstep => hstep.kept.2)
  · intro rt currency o ho o' ho' hch hp hp' b hb hb'
    exact pools_disjoint hok'.constraints ho ho' hch hp hp' hb hb'

/-- Pricing calls run one after the other. -/
theorem run_pricing (db : Db) (calls : List PricingCall) :
    Run PricedStep db (calls.map PricedLabel.pricing)
      (calls.foldl (fun db call => db.commit (call.run db)) db) := by
  induction calls generalizing db with
  | nil => exact Run.nil db
  | cons call calls ih =>
    exact (Run.single (PricedStep.pricing db call)).append (ih _)

end

namespace Shop

/-- One product and ten units of it on one batch, not for sale yet. -/
def unpriced : Db :=
  (Op.createBatch 1 10 30 "Shelf" (some "B") none false none).exec (runtime 0)
    { Db.empty with products := products }

def shelfBatch : InventoryBatch :=
  ⟨1, "B", 1, 10, 30, "Shelf", .active, 0, none, none, none, none, none⟩

/-- The product gets its prices, and the batch is sold at a discount. -/
def pricing : List PricingCall :=
  [ .ensureStandardOffer 1 .business,
    .updateProductStandardPricing 1 ⟨some ⟨1250, -2⟩, none, true⟩ ⟨some ⟨15, 0⟩, none, true⟩,
    .setPriceAmount 2 .sek ⟨160, 0⟩ (some ⟨1755, -1⟩),
    .createCommercialPrice 1 .retail none "",
    .updateBatchSpecialPricing shelfBatch "promotion" ⟨some ⟨9, 0⟩, none, true⟩ ⟨none, none, false⟩ ]

def priced : Db := pricing.foldl (fun db call => db.commit (call.run db)) unpriced

/-- The example is reached by a run. -/
theorem run_priced : Run PricedStep Db.empty
    ([.products products, .shop (runtime 0) (.createBatch 1 10 30 "Shelf" (some "B") none false none)]
      ++ pricing.map PricedLabel.pricing) priced := by
  have hproducts : PricedStep Db.empty (.products products) { Db.empty with products := products } :=
    PricedStep.products Db.empty (fun r hr => absurd hr (Table.not_mem_empty r))
  have hbatch : PricedStep _ _ unpriced := PricedStep.shop (runtime 0) _ rfl
  exact ((Run.single hproducts).append (Run.single hbatch)).append (run_pricing unpriced pricing)

/-- The example's offers are in order. -/
theorem priced_ok : OffersOk priced := offersOk_of_run run_priced OffersOk.empty

end Shop

/-- The pool of the batch offer is its batch, which has left the pool of the product. -/
theorem offers_along_runs_shop : OffersOk Shop.priced
    ∧ Shop.priced.commercialPrices.rows.map (fun o => (o.batchId, o.amounts.map PriceAmount.price))
      = [(none, [1250]), (none, [1500, 16000]), (some 1, [900])]
    ∧ Shop.priced.commercialPrices.rows.map (fun o =>
        (Shop.priced.batches.select (listOrderableBatchesForOffer (Shop.runtime 0) Shop.priced o
          .eur)).map InventoryBatch.pk) = [[], [1], [1]] :=
  ⟨(offers_along_runs Shop.run_priced OffersOk.empty).1, by decide +kernel, by decide +kernel⟩

/-- **The shop and the catalog.** A run without another catalog leaves products, offers and postal
    areas as they are, and loses no batch nor moves it to another product. -/
theorem catalog_untouched {s t : State} {ls : List (Runtime × Op)} (h : Run SystemStep s ls t)
    (hls : ∀ l ∈ ls, l.2.writesCatalog = false) : CatalogKept s.db t.db := by
  refine Run.relates (Q := fun s t : State => CatalogKept s.db t.db) (fun s => CatalogKept.refl s.db)
    (fun _ _ _ => CatalogKept.trans) (fun _ _ _ hstep => hstep)
    (h.mono (fun l hl s t hstep => ?_))
  show CatalogKept s.db t.db
  rw [hstep.2]
  exact Op.catalogKept (hls l hl) l.1 s.db

/-- A day of orders, payments and counting stock at the same prices. -/
theorem catalog_untouched_day :
    (State.init.after Shop.day).db.commercialPrices = Shop.offers
      ∧ (State.init.after Shop.day).db.products = Shop.products := by
  have hrun : Run SystemStep (State.init.after (Shop.opening.take 1)) (Shop.day.drop 1) _ :=
    State.run_after (by decide +kernel)
  have hkept := catalog_untouched hrun (by decide)
  have hday : (State.init.after (Shop.opening.take 1)).after (Shop.day.drop 1)
      = State.init.after Shop.day := by
    unfold State.after
    rw [← List.foldl_append]
    rfl
  rw [hday] at hkept
  exact ⟨hkept.prices, hkept.products⟩

/-! ### The forms -/

/-- What a form shows for a channel is what was entered, to the cent. -/
structure ChannelInitialData.Shows (data : ChannelInitialData) (entry : ChannelPricing) : Prop where
  eur : data.eur.map (fun c : Cents => (c : ℚ)) = entry.eur.map (fun d => 100 * d.value)
  sek : data.sek.map (fun c : Cents => (c : ℚ)) = entry.sek.map (fun d => 100 * d.value)
  enabled : data.enabled = entry.enabled

/-- A payable amount is shown as it was entered. -/
theorem formAmount_price {currency : Currency} {d : Option Decimal} (h : ∀ x ∈ d, x.Payable) :
    ((formAmount currency d).map PriceAmount.price).map (fun c : Cents => (c : ℚ))
      = d.map (fun x => 100 * x.value) := by
  cases d with
  | none => rfl
  | some x =>
    have hpay := h x rfl
    have hform : formAmount currency (some x) = some ⟨currency, x.cents, none, hpay.cents_pos⟩ :=
      formAmount_eq_some.mpr ⟨x, rfl, hpay, rfl, rfl, rfl⟩
    rw [hform]
    exact congrArg some hpay.cents_eq

section

variable {db db' : Db} {s : CommercialPrice.Scope} {reason : String → String} {always : Bool}
  {entry : ChannelPricing}

/-- **Read back.** What is on file shows what was entered. -/
theorem Db.Settled.shows (h : db.Settled s reason always entry) (hpay : entry.Payable) :
    (channelInitialData (db.offerFor s)).Shows entry := by
  -- An offer on file was configured; a missing one was skipped, and shows blank.
  cases hfind : db.offerFor s with
  | some o =>
    have ho := h.offer o hfind
    have hamount : ∀ currency, o.findAmount currency = formAmount currency (entry.amount currency) :=
      fun currency => by
        rw [← o.findAmount_configured entry currency, ← ho]
        rfl
    refine ⟨?_, ?_, ?_⟩
    · show ((o.findAmount .eur).map _).map _ = _
      rw [hamount]
      exact formAmount_price hpay.1
    · show ((o.findAmount .sek).map _).map _ = _
      rw [hamount]
      exact formAmount_price hpay.2
    · show o.enabled = _
      rw [← ho]
      rfl
  | none =>
    have hskip := h.missing hfind
    simp only [skips, ChannelPricing.isBlank, Bool.and_eq_true, decide_eq_true_eq,
      Bool.not_eq_true'] at hskip
    obtain ⟨-, ⟨heur, hsek⟩, henabled⟩ := hskip
    exact ⟨by rw [heur]; rfl, by rw [hsek]; rfl, henabled.symm⟩

/-- Two forms for two channels leave both of them settled. -/
theorem Db.settled_both {s s' : CommercialPrice.Scope} {reason reason' : String → String}
    {always always' : Bool} {entry entry' : ChannelPricing} (hne : s.channel ≠ s'.channel)
    (hreason : ∀ r, reason (reason r) = reason r) (hreason' : ∀ r, reason' (reason' r) = reason' r) :
    ((db.bring s reason always entry).bring s' reason' always' entry').Settled s reason always entry
      ∧ ((db.bring s reason always entry).bring s' reason' always' entry').Settled s' reason'
        always' entry' :=
  ⟨(Db.settled_bring hreason).bring hne, Db.settled_bring hreason'⟩

/-- The product form in terms of what it brings about. -/
theorem updateProductStandardPricing_eq_ok {p : Product} (hp : p ∈ db.products)
    {business retail : ChannelPricing} :
    updateProductStandardPricing db p.pk business retail = .ok db' ↔
      business.Payable ∧ retail.Payable
        ∧ db' = (db.bring ⟨p.pk, none, .business⟩ id true business).bring ⟨p.pk, none, .retail⟩ id
          false retail := by
  have hget : (db.products.get? p.pk).isSome = true := by
    rw [show p.pk = Row.pk p from rfl, Table.get?_self hp]
    rfl
  -- The second form runs in the database the first one leaves.
  have hsecond : ∀ d, updateProductChannelPricing (db.bring ⟨p.pk, none, .business⟩ id true business)
      p.pk .retail retail = .ok d ↔ retail.Payable ∧ d = (db.bring ⟨p.pk, none, .business⟩ id true
        business).bring ⟨p.pk, none, .retail⟩ id false retail := by
    intro d
    rw [updateProductChannelPricing_eq_ok (by rw [Db.bring_frame]; exact hget)]
    rfl
  simp only [updateProductStandardPricing, bind_eq_ok, updateProductChannelPricing_eq_ok hget]
  constructor
  · rintro ⟨_, ⟨hbusiness, rfl⟩, hretail⟩
    obtain ⟨hpay, rfl⟩ := (hsecond _).mp hretail
    exact ⟨hbusiness, hpay, rfl⟩
  · rintro ⟨hbusiness, hretail, rfl⟩
    exact ⟨_, ⟨hbusiness, rfl⟩, (hsecond _).mpr ⟨hretail, rfl⟩⟩

/-- **The product form.** It succeeds exactly when every amount entered is payable.  Then it shows
    what was entered, in both channels; the product has its standard offer; an offer that was there
    keeps its key and its reason; the offers of other products, and of batches, stay as they are,
    and so does everything that is no offer; and the form changes nothing when it is sent again. -/
theorem product_pricing_exact {p : Product} (hp : p ∈ db.products)
    (business retail : ChannelPricing) :
    ((∃ db', updateProductStandardPricing db p.pk business retail = .ok db') ↔
      business.Payable ∧ retail.Payable) ∧
    ∀ db', updateProductStandardPricing db p.pk business retail = .ok db' →
      (channelInitialData (getProductCommercialPrice db' p.pk .business)).Shows business
        ∧ (channelInitialData (getProductCommercialPrice db' p.pk .retail)).Shows retail
        ∧ (getProductCommercialPrice db' p.pk .business).isSome = true
        ∧ (∀ channel o, getProductCommercialPrice db p.pk channel = some o → ∃ o',
          getProductCommercialPrice db' p.pk channel = some o' ∧ o'.pk = o.pk
            ∧ o'.reason = o.reason)
        ∧ (∀ o : CommercialPrice, ¬ (o.productId = p.pk ∧ o.batchId = none) →
          (o ∈ db'.commercialPrices ↔ o ∈ db.commercialPrices))
        ∧ db' = { db with commercialPrices := db'.commercialPrices }
        ∧ updateProductStandardPricing db' p.pk business retail = .ok db' := by
  refine ⟨⟨?_, ?_⟩, fun db' h => ?_⟩
  · rintro ⟨db', h⟩
    obtain ⟨hbusiness, hretail, -⟩ := (updateProductStandardPricing_eq_ok hp).mp h
    exact ⟨hbusiness, hretail⟩
  · rintro ⟨hbusiness, hretail⟩
    exact ⟨_, (updateProductStandardPricing_eq_ok hp).mpr ⟨hbusiness, hretail, rfl⟩⟩
  obtain ⟨hbusiness, hretail, hdb⟩ := (updateProductStandardPricing_eq_ok hp).mp h
  obtain ⟨hset, hset'⟩ : db'.Settled ⟨p.pk, none, .business⟩ id true business
      ∧ db'.Settled ⟨p.pk, none, .retail⟩ id false retail := by
    rw [hdb]
    exact Db.settled_both (by simp) (fun _ => rfl) (fun _ => rfl)
  -- Both forms write offers only.
  have hframe : db' = { db with commercialPrices := db'.commercialPrices } := by
    rw [hdb, Db.bring_frame, Db.bring_frame db]
  simp only [getProductCommercialPrice_eq]
  refine ⟨hset.shows hbusiness, hset'.shows hretail, ?_, ?_, ?_, hframe, ?_⟩
  · -- a product without a standard offer is not left without one
    rw [Option.isSome_iff_ne_none]
    intro hnone
    have hskip := hset.missing hnone
    simp [Db.skips] at hskip
  · intro channel o ho
    -- An offer on file is not skipped, so it is brought to the entry.
    have hskip : ∀ always entry, db.skips ⟨p.pk, none, channel⟩ always entry = false := by
      intro always entry
      simp [Db.skips, ho]
    cases channel with
    | business =>
      refine ⟨o.brought id business, ?_, rfl, rfl⟩
      rw [hdb, Db.offerFor_bring_of_ne (by simp), Db.offerFor_bring, hskip, ho]
      rfl
    | retail =>
      have ho' : (db.bring ⟨p.pk, none, .business⟩ id true business).offerFor
          ⟨p.pk, none, .retail⟩ = some o :=
        (Db.offerFor_bring_of_ne (by simp)).trans ho
      refine ⟨o.brought id retail, ?_, rfl, rfl⟩
      rw [hdb, Db.offerFor_bring]
      unfold Db.skips
      rw [ho']
      rfl
  · intro o hother
    have hfor : ∀ channel, o.isFor ⟨p.pk, none, channel⟩ = false := by
      intro channel
      by_contra hfor
      simp only [CommercialPrice.isFor, Bool.not_eq_false, Bool.and_eq_true,
        decide_eq_true_eq] at hfor
      exact hother hfor.2
    rw [hdb, Db.mem_bring (hfor _), Db.mem_bring (hfor _)]
  · have hp' : p ∈ db'.products := by
      rw [hframe]
      exact hp
    rw [updateProductStandardPricing_eq_ok hp', hset.bring_eq, hset'.bring_eq]
    exact ⟨hbusiness, hretail, rfl⟩

/-- The business offer is withdrawn with a new price; the retail offer keeps its krona price only.
    A price of less than a cent is refused. -/
theorem product_pricing_exact_shop :
    (∃ db', updateProductStandardPricing Shop.priced 1 ⟨some ⟨13, 0⟩, none, false⟩
        ⟨none, some ⟨1699, -1⟩, true⟩ = .ok db'
      ∧ (channelInitialData (getProductCommercialPrice db' 1 .business)).Shows
        ⟨some ⟨13, 0⟩, none, false⟩
      ∧ (channelInitialData (getProductCommercialPrice db' 1 .retail)).Shows
        ⟨none, some ⟨1699, -1⟩, true⟩)
    ∧ ¬ ∃ db', updateProductStandardPricing Shop.priced 1 ⟨some ⟨4, -3⟩, none, true⟩
        ⟨none, none, false⟩ = .ok db' := by
  have hp : Shop.product ∈ Shop.priced.products :=
    Table.mem_def.mpr (by decide +kernel)
  obtain ⟨hiff, hexact⟩ := product_pricing_exact hp ⟨some ⟨13, 0⟩, none, false⟩
    ⟨none, some ⟨1699, -1⟩, true⟩
  obtain ⟨db', hdb⟩ := hiff.mpr (by decide +kernel)
  obtain ⟨hbusiness, hretail, -⟩ := hexact db' hdb
  refine ⟨⟨db', hdb, hbusiness, hretail⟩, ?_⟩
  -- A price with three decimals is refused.
  have hrefused := (product_pricing_exact hp ⟨some ⟨4, -3⟩, none, true⟩ ⟨none, none, false⟩).1
  exact fun h => absurd (hrefused.mp h) (by decide +kernel)

/-- The batch form in terms of what it brings about. -/
theorem updateBatchSpecialPricing_eq_ok (hok : OffersOk db) {b : InventoryBatch}
    (hb : b ∈ db.batches) (hp : (db.products.get? b.productId).isSome = true) {reason : String}
    {business retail : ChannelPricing} :
    updateBatchSpecialPricing db b reason business retail = .ok db' ↔
      business.Payable ∧ retail.Payable
        ∧ ((db.skips ⟨b.productId, some b.pk, .business⟩ false business
          && db.skips ⟨b.productId, some b.pk, .retail⟩ false retail) = false →
            reason ∈ CommercialPrice.reasons)
        ∧ db' = (db.bring ⟨b.productId, some b.pk, .business⟩ (fun _ => reason) false
          business).bring ⟨b.productId, some b.pk, .retail⟩ (fun _ => reason) false retail := by
  -- The second form runs in the database the first one leaves, and finds its scope as it was.
  have hsecond : ∀ d₁, updateBatchChannelPricing db b .business reason business = .ok d₁ →
      d₁ = db.bring ⟨b.productId, some b.pk, .business⟩ (fun _ => reason) false business →
      ∀ d, updateBatchChannelPricing d₁ b .retail reason retail = .ok d ↔ retail.Payable
        ∧ (db.skips ⟨b.productId, some b.pk, .retail⟩ false retail = false →
          reason ∈ CommercialPrice.reasons)
        ∧ d = d₁.bring ⟨b.productId, some b.pk, .retail⟩ (fun _ => reason) false retail := by
    intro d₁ hd₁ hbring d
    have hmoves := OffersMove.updateBatchChannelPricing hd₁
    have hb₁ : b ∈ d₁.batches := by
      rw [hmoves.frame]
      exact hb
    have hp₁ : (d₁.products.get? b.productId).isSome = true := by
      rw [hmoves.frame]
      exact hp
    have hskip : d₁.skips ⟨b.productId, some b.pk, .retail⟩ false retail
        = db.skips ⟨b.productId, some b.pk, .retail⟩ false retail := by
      unfold Db.skips
      rw [hbring, Db.offerFor_bring_of_ne (by simp)]
    rw [(hmoves.kept hok).updateBatchChannelPricing_eq_ok hb₁ hp₁, hskip]
  simp only [updateBatchSpecialPricing, bind_eq_ok]
  constructor
  · rintro ⟨d₁, hd₁, hd⟩
    obtain ⟨hbusiness, hreason, hbring⟩ := (hok.updateBatchChannelPricing_eq_ok hb hp).mp hd₁
    obtain ⟨hretail, hreason', rfl⟩ := (hsecond d₁ hd₁ hbring _).mp hd
    refine ⟨hbusiness, hretail, fun hskip => ?_, by rw [hbring]⟩
    rcases (Bool.and_eq_false_iff).mp hskip with hskip | hskip
    · exact hreason hskip
    · exact hreason' hskip
  · rintro ⟨hbusiness, hretail, hreason, rfl⟩
    have hd₁ : updateBatchChannelPricing db b .business reason business = .ok _ :=
      (hok.updateBatchChannelPricing_eq_ok hb hp).mpr
        ⟨hbusiness, fun hskip => hreason (by simp [hskip]), rfl⟩
    exact ⟨_, hd₁, (hsecond _ hd₁ rfl _).mpr ⟨hretail, fun hskip => hreason (by simp [hskip]), rfl⟩⟩

/-- The batch has no offer in the channel, and the form says nothing about it. -/
def Untouched (db : Db) (b : InventoryBatch) (channel : Channel) (entry : ChannelPricing) : Prop :=
  getBatchCommercialPrice db b.pk channel = none ∧ entry.isBlank = true

/-- A blank form for a batch without an offer is one that is skipped. -/
theorem untouched_iff {b : InventoryBatch} {channel : Channel} {entry : ChannelPricing} :
    Untouched db b channel entry ↔ db.skips ⟨b.productId, some b.pk, channel⟩ false entry = true := by
  unfold Untouched Db.skips
  rw [getBatchCommercialPrice_eq db b.productId]
  simp

/-- The reason the form shows, when an offer is there and both agree on it. -/
theorem pricingReason_eq {business retail : Option CommercialPrice} {reason : String}
    (hbusiness : ∀ o ∈ business, o.reason = reason) (hretail : ∀ o ∈ retail, o.reason = reason)
    (hone : business ≠ none ∨ retail ≠ none) : pricingReason business retail = reason := by
  unfold pricingReason
  by_cases hr : reason = ""
  · subst hr
    cases business <;> cases retail <;> simp_all
  · cases business <;> cases retail <;> simp_all

/-- A settled channel excludes the batch from the product-wide pools where it is enabled and
    priced. -/
theorem Db.Settled.isExcludedBatch_iff (hok : OffersOk db) {b : InventoryBatch} {channel : Channel}
    {reason : String → String} {always : Bool} {entry : ChannelPricing}
    (h : db.Settled ⟨b.productId, some b.pk, channel⟩ reason always entry) (hpay : entry.Payable)
    (currency : Currency) : isExcludedBatch db channel currency b.pk = true ↔
      entry.enabled = true ∧ (entry.amount currency).isSome = true := by
  -- The offer has an amount in the currency when one was entered.
  have hamount : ∀ o, db.offerFor ⟨b.productId, some b.pk, channel⟩ = some o →
      (o.hasAmount currency = true ↔ (entry.amount currency).isSome = true) := by
    intro o ho
    have hfind : o.findAmount currency = formAmount currency (entry.amount currency) := by
      rw [← o.findAmount_configured entry currency, ← h.offer o ho]
      rfl
    have hhas : o.hasAmount currency = true ↔ (o.findAmount currency).isSome = true := by
      simp [CommercialPrice.hasAmount, CommercialPrice.findAmount]
    have hpayable : ∀ x ∈ entry.amount currency, x.Payable := by
      cases currency with
      | eur => exact hpay.1
      | sek => exact hpay.2
    rw [hhas, hfind, Option.isSome_iff_exists, Option.isSome_iff_exists]
    constructor
    · rintro ⟨a, ha⟩
      obtain ⟨x, hx, -⟩ := formAmount_eq_some.mp ha
      exact ⟨x, hx⟩
    · rintro ⟨x, hx⟩
      have hx := hpayable x hx
      exact ⟨⟨currency, x.cents, none, hx.cents_pos⟩,
        formAmount_eq_some.mpr ⟨x, ‹_›, hx, rfl, rfl, rfl⟩⟩
  rw [SwedeSweets.isExcludedBatch_iff]
  constructor
  · rintro ⟨o, ho, hch, hen, hhas, hbatch⟩
    have hfor : o.isFor ⟨b.productId, some b.pk, channel⟩ = true := by
      simp [CommercialPrice.isFor, hch, hbatch]
    have hfind : db.offerFor ⟨b.productId, some b.pk, channel⟩ = some o := by
      refine Table.find?_eq_some_of_unique ho hfor (fun x hx hxfor => ?_)
      refine hok.unique o ho x hx ?_
      simpa [CommercialPrice.isFor, CommercialPrice.scope, hch, hbatch] using hxfor
    refine ⟨?_, (hamount o hfind).mp hhas⟩
    rw [← hen, ← h.offer o hfind]
    rfl
  · rintro ⟨hen, hsome⟩
    cases hfind : db.offerFor ⟨b.productId, some b.pk, channel⟩ with
    | none =>
      have hskip := h.missing hfind
      simp [Db.skips, ChannelPricing.isBlank, hen] at hskip
    | some o =>
      obtain ⟨ho, hfor⟩ := Db.offerFor_eq_some hfind
      simp only [CommercialPrice.isFor, Bool.and_eq_true, decide_eq_true_eq] at hfor
      refine ⟨o, ho, hfor.1, ?_, (hamount o hfind).mpr hsome, hfor.2⟩
      rw [← h.offer o hfind]
      exact hen

/-- **The batch form.** It succeeds exactly when every amount entered is payable and the reason is
    a known one, which does not matter when no offer is there and nothing is entered.  Then it
    shows what was entered, in both channels; the offers of products, and of other batches, stay as
    they are, and so does everything that is no offer; the batch is left out of the product-wide
    pools of a channel and currency exactly when the channel was enabled and the currency priced;
    and the form changes nothing when it is sent again. -/
theorem batch_pricing_exact (hok : OffersOk db) {b : InventoryBatch} (hb : b ∈ db.batches)
    (hp : (db.products.get? b.productId).isSome = true) (reason : String)
    (business retail : ChannelPricing) :
    ((∃ db', updateBatchSpecialPricing db b reason business retail = .ok db') ↔
      business.Payable ∧ retail.Payable ∧ (reason ∈ CommercialPrice.reasons
        ∨ (Untouched db b .business business ∧ Untouched db b .retail retail))) ∧
    ∀ db', updateBatchSpecialPricing db b reason business retail = .ok db' →
      (channelInitialData (getBatchCommercialPrice db' b.pk .business)).Shows business
        ∧ (channelInitialData (getBatchCommercialPrice db' b.pk .retail)).Shows retail
        ∧ (¬ (Untouched db b .business business ∧ Untouched db b .retail retail) →
          pricingReason (getBatchCommercialPrice db' b.pk .business)
            (getBatchCommercialPrice db' b.pk .retail) = reason)
        ∧ (∀ o : CommercialPrice, o.batchId ≠ some b.pk →
          (o ∈ db'.commercialPrices ↔ o ∈ db.commercialPrices))
        ∧ db' = { db with commercialPrices := db'.commercialPrices }
        ∧ (∀ currency, (isExcludedBatch db' .business currency b.pk = true ↔
            business.enabled = true ∧ (business.amount currency).isSome = true)
          ∧ (isExcludedBatch db' .retail currency b.pk = true ↔
            retail.enabled = true ∧ (retail.amount currency).isSome = true))
        ∧ updateBatchSpecialPricing db' b reason business retail = .ok db' := by
  have hboth : (db.skips ⟨b.productId, some b.pk, .business⟩ false business
      && db.skips ⟨b.productId, some b.pk, .retail⟩ false retail) = true ↔
        Untouched db b .business business ∧ Untouched db b .retail retail := by
    rw [Bool.and_eq_true, ← untouched_iff, ← untouched_iff]
  refine ⟨⟨?_, ?_⟩, fun db' h => ?_⟩
  · rintro ⟨db', h⟩
    obtain ⟨hbusiness, hretail, hreason, -⟩ := (updateBatchSpecialPricing_eq_ok hok hb hp).mp h
    refine ⟨hbusiness, hretail, ?_⟩
    rw [← hboth]
    cases hskip : (db.skips ⟨b.productId, some b.pk, .business⟩ false business
      && db.skips ⟨b.productId, some b.pk, .retail⟩ false retail) with
    | true => exact Or.inr rfl
    | false => exact Or.inl (hreason hskip)
  · rintro ⟨hbusiness, hretail, hreason⟩
    refine ⟨_, (updateBatchSpecialPricing_eq_ok hok hb hp).mpr ⟨hbusiness, hretail, ?_, rfl⟩⟩
    intro hskip
    rw [← hboth, hskip] at hreason
    exact hreason.resolve_right (by simp)
  have hmoves := OffersMove.updateBatchSpecialPricing h
  have hok' := hmoves.kept hok
  obtain ⟨hbusiness, hretail, hreason, hdb⟩ := (updateBatchSpecialPricing_eq_ok hok hb hp).mp h
  obtain ⟨hset, hset'⟩ :
      db'.Settled ⟨b.productId, some b.pk, .business⟩ (fun _ => reason) false business
        ∧ db'.Settled ⟨b.productId, some b.pk, .retail⟩ (fun _ => reason) false retail := by
    rw [hdb]
    exact Db.settled_both (by simp) (fun _ => rfl) (fun _ => rfl)
  -- what is missing afterwards was left out
  have hleft : ∀ channel entry, (channel = .business ∧ entry = business)
      ∨ (channel = .retail ∧ entry = retail) →
      db'.offerFor ⟨b.productId, some b.pk, channel⟩ = none → Untouched db b channel entry := by
    rintro channel entry (⟨rfl, rfl⟩ | ⟨rfl, rfl⟩) hnone
    · rw [hdb, Db.offerFor_bring_of_ne (by simp), Db.offerFor_bring] at hnone
      split_ifs at hnone with hskip
      exact untouched_iff.mpr hskip
    · rw [hdb, Db.offerFor_bring] at hnone
      split_ifs at hnone with hskip
      rw [untouched_iff]
      unfold Db.skips at hskip ⊢
      rwa [Db.offerFor_bring_of_ne (by simp)] at hskip
  have hreasonOf : ∀ {s entry o}, db'.Settled s (fun _ => reason) false entry →
      db'.offerFor s = some o → o.reason = reason := by
    intro s entry o hs ho
    rw [← hs.offer o ho]
    rfl
  simp only [getBatchCommercialPrice_eq db' b.productId]
  refine ⟨hset.shows hbusiness, hset'.shows hretail, fun htouched => ?_, fun o hother => ?_,
    hmoves.frame, fun currency => ?_, ?_⟩
  · refine pricingReason_eq (fun o ho => hreasonOf hset ho) (fun o ho => hreasonOf hset' ho) ?_
    by_contra hnone
    rw [not_or, not_not, not_not] at hnone
    exact htouched ⟨hleft _ _ (Or.inl ⟨rfl, rfl⟩) hnone.1, hleft _ _ (Or.inr ⟨rfl, rfl⟩) hnone.2⟩
  · have hfor : ∀ channel, o.isFor ⟨b.productId, some b.pk, channel⟩ = false := by
      intro channel
      simp [CommercialPrice.isFor, hother]
    rw [hdb, Db.mem_bring (hfor _), Db.mem_bring (hfor _)]
  · exact ⟨hset.isExcludedBatch_iff hok' hbusiness currency,
      hset'.isExcludedBatch_iff hok' hretail currency⟩
  · have hb' : b ∈ db'.batches := by
      rw [hmoves.frame]
      exact hb
    have hp' : (db'.products.get? b.productId).isSome = true := by
      rw [hmoves.frame]
      exact hp
    rw [updateBatchSpecialPricing_eq_ok hok' hb' hp', hset.bring_eq, hset'.bring_eq]
    refine ⟨hbusiness, hretail, fun hskip => ?_, rfl⟩
    -- an offer that is there now was there before, or was created
    apply hreason
    rw [← Bool.not_eq_true, hboth]
    rintro ⟨hun, hun'⟩
    have hsame : db' = db := by
      rw [hdb, Db.bring_of_skips (untouched_iff.mp hun), Db.bring_of_skips (untouched_iff.mp hun')]
    rw [hsame, hboth.mpr ⟨hun, hun'⟩] at hskip
    cases hskip

end

/-- The discount ends for businesses and starts for retail, and the batch changes pools with it. -/
theorem batch_pricing_exact_shop :
    ∃ db', updateBatchSpecialPricing Shop.priced Shop.shelfBatch "short_dated"
        ⟨some ⟨9, 0⟩, none, false⟩ ⟨some ⟨10, 0⟩, none, true⟩ = .ok db'
      ∧ isExcludedBatch db' .business .eur 1 = false ∧ isExcludedBatch db' .retail .eur 1 = true
      ∧ pricingReason (getBatchCommercialPrice db' 1 .business)
        (getBatchCommercialPrice db' 1 .retail) = "short_dated" := by
  have hb : Shop.shelfBatch ∈ Shop.priced.batches :=
    Table.mem_def.mpr (by decide +kernel)
  have hp : (Shop.priced.products.get? Shop.shelfBatch.productId).isSome = true := by decide +kernel
  obtain ⟨hiff, hexact⟩ := batch_pricing_exact Shop.priced_ok hb hp "short_dated"
    ⟨some ⟨9, 0⟩, none, false⟩ ⟨some ⟨10, 0⟩, none, true⟩
  obtain ⟨db', hdb⟩ := hiff.mpr ⟨by decide +kernel, by decide +kernel, Or.inl (by decide)⟩
  obtain ⟨-, -, hreason, -, -, hexcluded, -⟩ := hexact db' hdb
  -- The BUSINESS offer is disabled, the RETAIL one excludes the batch.
  refine ⟨db', hdb, ?_, (hexcluded .eur).2.mpr ⟨rfl, rfl⟩, hreason ?_⟩
  · rw [← Bool.not_eq_true]
    exact fun h => absurd ((hexcluded .eur).1.mp h).1 (by decide)
  · rintro ⟨⟨-, hblank⟩, -⟩
    cases hblank

end SwedeSweets
