import SwedeSweets.Pricing.Forms

namespace SwedeSweets

open Relational Fallible

/-!
# The invariant of the offer table

* `OffersOk` — one offer for each scope, of a product and a batch that exist, with a known reason
  and at most one amount for each currency, none discounted below itself; `OffersOk.constraints`
  are the constraints that the offer pools rest on.
* `OffersMove` — what a pricing service does to the database: it writes offers only, keeps
  `OffersOk`, and leaves every offer with the scope it has.
-/

namespace CommercialPrice

/-- One amount for each currency, in the order of the currencies, within the columns of the table,
    and no original price below the price. -/
structure AmountsOk (o : CommercialPrice) : Prop where
  sorted : (o.amounts.map (fun a => a.currency.rank)).Pairwise (· < ·)
  bounded : ∀ a ∈ o.amounts, a.price < 10 ^ 10
  original : ∀ a ∈ o.amounts, ∀ c ∈ a.originalPrice, a.price ≤ c ∧ c < 10 ^ 10

instance (o : CommercialPrice) : Decidable o.AmountsOk :=
  decidable_of_iff ((o.amounts.map (fun a => a.currency.rank)).Pairwise (· < ·)
      ∧ (∀ a ∈ o.amounts, a.price < 10 ^ 10)
      ∧ ∀ a ∈ o.amounts, ∀ c ∈ a.originalPrice, a.price ≤ c ∧ c < 10 ^ 10)
    ⟨fun ⟨hsorted, hbounded, horiginal⟩ => ⟨hsorted, hbounded, horiginal⟩,
      fun h => ⟨h.sorted, h.bounded, h.original⟩⟩

variable {o : CommercialPrice}

/-- Two offers are for the scope of each other. -/
theorem isFor_comm (o x : CommercialPrice) : x.isFor o.scope = o.isFor x.scope := by
  unfold isFor scope
  cases ho : o.batchId <;> cases hx : x.batchId <;> grind

/-- What an offer is for depends on its scope. -/
theorem isFor_congr {o x : CommercialPrice} (h : x.scope = o.scope) (s : Scope) :
    x.isFor s = o.isFor s := by
  obtain ⟨hproduct, hbatch, hchannel⟩ := Scope.mk.inj h
  unfold isFor
  rw [hproduct, hbatch, hchannel]

/-- An amount within the columns keeps the amounts in order. -/
theorem AmountsOk.withAmount (h : o.AmountsOk) {a : PriceAmount} (hprice : a.price < 10 ^ 10)
    (horiginal : ∀ c ∈ a.originalPrice, a.price ≤ c ∧ c < 10 ^ 10) : (o.withAmount a).AmountsOk := by
  -- The amounts are those of the other currencies, with the new one between them by rank.
  have hmem : ∀ x ∈ (o.withAmount a).amounts, x = a ∨ x ∈ o.amounts := by
    intro x hx
    rcases List.mem_append.mp hx with hx | hx
    · exact Or.inr (List.mem_of_mem_filter hx)
    · rcases List.mem_cons.mp hx with rfl | hx
      · exact Or.inl rfl
      · exact Or.inr (List.mem_of_mem_filter hx)
  refine ⟨?_, fun x hx => ?_, fun x hx => ?_⟩
  · have hsorted := List.pairwise_map.mp h.sorted
    rw [List.pairwise_map]
    refine List.pairwise_append.mpr ⟨hsorted.filter _, ?_, ?_⟩
    · refine List.pairwise_cons.mpr ⟨fun x hx => ?_, hsorted.filter _⟩
      exact of_decide_eq_true (List.mem_filter.mp hx).2
    · intro x hx y hy
      have hlow := of_decide_eq_true (List.mem_filter.mp hx).2
      rcases List.mem_cons.mp hy with rfl | hy
      · exact hlow
      · exact hlow.trans (of_decide_eq_true (List.mem_filter.mp hy).2)
  · rcases hmem x hx with rfl | hx
    · exact hprice
    · exact h.bounded x hx
  · rcases hmem x hx with rfl | hx
    · exact horiginal
    · exact h.original x hx

/-- Removing an amount keeps the others in order. -/
theorem AmountsOk.withoutAmount (h : o.AmountsOk) (currency : Currency) :
    (o.withoutAmount currency).AmountsOk :=
  ⟨List.pairwise_map.mpr ((List.pairwise_map.mp h.sorted).filter _),
    fun x hx => h.bounded x (List.mem_of_mem_filter hx),
    fun x hx => h.original x (List.mem_of_mem_filter hx)⟩

end CommercialPrice

/-- What holds of the offer table. -/
structure OffersOk (db : Db) : Prop where
  unique : ∀ o ∈ db.commercialPrices, ∀ x ∈ db.commercialPrices, x.isFor o.scope = true → x = o
  product : ∀ o ∈ db.commercialPrices, (db.products.get? o.productId).isSome = true
  batch : ∀ o ∈ db.commercialPrices, ∀ k ∈ o.batchId,
    ∃ b, db.batches.get? k = some b ∧ b.productId = o.productId
  reason : ∀ o ∈ db.commercialPrices, o.reason ∈ CommercialPrice.reasons
  amounts : ∀ o ∈ db.commercialPrices, o.AmountsOk

namespace OffersOk

variable {db db' : Db} {o : CommercialPrice}

/-- Without offers there is nothing to keep. -/
theorem empty : OffersOk Db.empty where
  unique := fun _ ho => absurd ho (Table.not_mem_empty _)
  product := fun _ ho => absurd ho (Table.not_mem_empty _)
  batch := fun _ ho => absurd ho (Table.not_mem_empty _)
  reason := fun _ ho => absurd ho (Table.not_mem_empty _)
  amounts := fun _ ho => absurd ho (Table.not_mem_empty _)

/-- **Constraints.** The invariant implies what the pools of a channel rest on. -/
theorem constraints (h : OffersOk db) : OfferConstraints db where
  uniqueProductPrice := by
    intro o ho o' ho' hwide hwide' hproduct hchannel
    refine (h.unique o ho o' ho' ?_).symm
    simp [CommercialPrice.isFor, CommercialPrice.scope, hwide, hwide', hproduct, hchannel]
  uniqueBatchPrice := by
    intro o ho o' ho' hbatch hsame hchannel
    obtain ⟨k, hk⟩ := Option.ne_none_iff_exists'.mp hbatch
    refine (h.unique o ho o' ho' ?_).symm
    simp [CommercialPrice.isFor, CommercialPrice.scope, hk, ← hsame, hchannel]
  batchProduct := by
    intro o ho b hb hbatch
    obtain ⟨x, hx, hproduct⟩ := h.batch o ho b.pk hbatch
    have hget : db.batches.get? b.pk = some b := Table.get?_self hb
    rw [hget, Option.some.injEq] at hx
    rwa [hx]

/-- Saving an offer under its scope. -/
theorem put (h : OffersOk db) (ho : o ∈ db.commercialPrices) {o' : CommercialPrice}
    (hpk : o'.pk = o.pk) (hscope : o'.scope = o.scope)
    (hreason : o'.reason ∈ CommercialPrice.reasons) (hamounts : o'.AmountsOk) :
    OffersOk (db.putCommercialPrice o') := by
  have hmem : ∀ {x}, x ∈ (db.putCommercialPrice o').commercialPrices ↔
      x = o' ∨ (x ∈ db.commercialPrices ∧ x.pk ≠ o'.pk) :=
    fun {x} => Db.mem_putCommercialPrice ho hpk
  -- the row a saved row comes from has its scope
  have hback : ∀ x ∈ (db.putCommercialPrice o').commercialPrices,
      ∃ y ∈ db.commercialPrices, y.pk = x.pk ∧ y.scope = x.scope := by
    intro x hx
    rcases hmem.mp hx with rfl | ⟨hx, -⟩
    · exact ⟨o, ho, hpk.symm, hscope.symm⟩
    · exact ⟨x, hx, rfl, rfl⟩
  have hproductId : o'.productId = o.productId := congrArg CommercialPrice.Scope.productId hscope
  have hbatchId : o'.batchId = o.batchId := congrArg CommercialPrice.Scope.batchId hscope
  refine ⟨fun x hx y hy hfor => ?_, fun x hx => ?_, fun x hx => ?_, fun x hx => ?_, fun x hx => ?_⟩
  · obtain ⟨x₀, hx₀, hxpk, hxs⟩ := hback x hx
    obtain ⟨y₀, hy₀, hypk, hys⟩ := hback y hy
    have hfor₀ : y₀.isFor x₀.scope = true := by
      rw [CommercialPrice.isFor_congr hys, hxs]
      exact hfor
    have := h.unique x₀ hx₀ y₀ hy₀ hfor₀
    exact Table.eq_of_pk_eq hy hx (hypk.symm.trans ((congrArg _ this).trans hxpk))
  · rcases hmem.mp hx with rfl | ⟨hx, -⟩
    · rw [hproductId]
      exact h.product o ho
    · exact h.product x hx
  · rcases hmem.mp hx with rfl | ⟨hx, -⟩
    · rw [hproductId, hbatchId]
      exact h.batch o ho
    · exact h.batch x hx
  · rcases hmem.mp hx with rfl | ⟨hx, -⟩
    · exact hreason
    · exact h.reason x hx
  · rcases hmem.mp hx with rfl | ⟨hx, -⟩
    · exact hamounts
    · exact h.amounts x hx

/-- A new offer for a free scope. -/
theorem insert (h : OffersOk db) {d : NewRow CommercialPrice}
    (hfree : db.offerFor (d.make db.commercialPrices.next).scope = none)
    (hproduct : (db.products.get? (d.make db.commercialPrices.next).productId).isSome = true)
    (hbatch : ∀ k ∈ (d.make db.commercialPrices.next).batchId, ∃ b, db.batches.get? k = some b
      ∧ b.productId = (d.make db.commercialPrices.next).productId)
    (hreason : (d.make db.commercialPrices.next).reason ∈ CommercialPrice.reasons)
    (hamounts : (d.make db.commercialPrices.next).AmountsOk) :
    OffersOk (db.insertCommercialPrice d).1 := by
  have hfree := Db.offerFor_eq_none.mp hfree
  -- The new offer is for a free scope, so two offers for one scope are the same row.
  refine ⟨fun x hx y hy hfor => ?_, fun x hx => ?_, fun x hx => ?_, fun x hx => ?_, fun x hx => ?_⟩
  · rcases Table.mem_insert.mp hx with hx | rfl <;> rcases Table.mem_insert.mp hy with hy | rfl
    · exact h.unique x hx y hy hfor
    · rw [CommercialPrice.isFor_comm, hfree x hx] at hfor
      cases hfor
    · rw [hfree y hy] at hfor
      cases hfor
    · rfl
  · rcases Table.mem_insert.mp hx with hx | rfl
    · exact h.product x hx
    · exact hproduct
  · rcases Table.mem_insert.mp hx with hx | rfl
    · exact h.batch x hx
    · exact hbatch
  · rcases Table.mem_insert.mp hx with hx | rfl
    · exact h.reason x hx
    · exact hreason
  · rcases Table.mem_insert.mp hx with hx | rfl
    · exact h.amounts x hx
    · exact hamounts

/-- The offers do not mind what happens to products and batches, as long as none is lost. -/
theorem elsewhere (h : OffersOk db) (hprices : db'.commercialPrices = db.commercialPrices)
    (hproducts : Table.Evolves (fun _ _ => True) db.products db'.products)
    (hbatches : Table.Evolves (fun b b' => b'.productId = b.productId) db.batches db'.batches) :
    OffersOk db' where
  unique := by
    rw [hprices]
    exact h.unique
  product := by
    rw [hprices]
    intro o ho
    -- Products and batches are found by keys that do not change.
    obtain ⟨p, hp⟩ := Option.isSome_iff_exists.mp (h.product o ho)
    obtain ⟨hmem, hpk⟩ := Table.get?_eq_some.mp hp
    obtain ⟨p', hmem', hpk', -⟩ := hproducts p hmem
    rw [Table.get?_eq_some.mpr ⟨hmem', hpk'.trans hpk⟩]
    rfl
  batch := by
    rw [hprices]
    intro o ho k hk
    obtain ⟨b, hb, hproduct⟩ := h.batch o ho k hk
    obtain ⟨hmem, hpk⟩ := Table.get?_eq_some.mp hb
    obtain ⟨b', hmem', hpk', hsame⟩ := hbatches b hmem
    exact ⟨b', Table.get?_eq_some.mpr ⟨hmem', hpk'.trans hpk⟩, hsame.trans hproduct⟩
  reason := by
    rw [hprices]
    exact h.reason
  amounts := by
    rw [hprices]
    exact h.amounts

/-- An offer that is there passes its checks, as far as they are not about the reason. -/
theorem fullClean (h : OffersOk db) (ho : o ∈ db.commercialPrices) (reason : String) :
    ({ o with reason := reason } : CommercialPrice).fullClean db = true
      ↔ reason ∈ CommercialPrice.reasons := by
  have hproduct := h.product o ho
  have hbatch : o.batchId.all (fun k =>
      (db.batches.get? k).any (fun b => b.productId = o.productId)) = true := by
    rw [Option.all_eq_true]
    intro k hk
    obtain ⟨b, hb, hp⟩ := h.batch o ho k hk
    simp [hb, hp]
  -- Uniqueness is checked against the row's own scope, which the edit keeps.
  have hunique : db.commercialPrices.rows.all
      (fun x => x.pk = o.pk || !x.isFor o.scope) = true := by
    rw [List.all_eq_true]
    intro x hx
    cases hfor : x.isFor o.scope with
    | false => simp
    | true => simp [h.unique o ho x hx hfor]
  simp only [CommercialPrice.fullClean, Bool.and_eq_true, List.contains_eq_mem, decide_eq_true_eq]
  exact ⟨fun hc => hc.1.1.2, fun hr => ⟨⟨⟨hproduct, hr⟩, hbatch⟩, hunique⟩⟩

/-- **A batch, one channel.** The form brings the batch offer to the entry and to the reason, which
    has to be a known one unless nothing is written. -/
theorem updateBatchChannelPricing_eq_ok (h : OffersOk db) {b : InventoryBatch}
    (hb : b ∈ db.batches) (hp : (db.products.get? b.productId).isSome = true) {channel : Channel}
    {reason : String} {entry : ChannelPricing} :
    updateBatchChannelPricing db b channel reason entry = .ok db' ↔ entry.Payable
      ∧ (db.skips ⟨b.productId, some b.pk, channel⟩ false entry = false →
        reason ∈ CommercialPrice.reasons)
      ∧ db' = db.bring ⟨b.productId, some b.pk, channel⟩ (fun _ => reason) false entry := by
  unfold updateBatchChannelPricing Db.bring
  rw [getBatchCommercialPrice_eq db b.productId]
  -- An offer on file has its reason set first; a missing one is created with it.
  cases hfind : db.offerFor ⟨b.productId, some b.pk, channel⟩ with
  | some o =>
    obtain ⟨ho, -⟩ := Db.offerFor_eq_some hfind
    have hset : ∀ d, setCommercialPriceReason db o.pk reason = .ok d ↔
        reason ∈ CommercialPrice.reasons
          ∧ d = db.putCommercialPrice { o with reason := reason } := by
      intro d
      rw [setCommercialPriceReason, editCommercialPrice_of ho]
      simp only [bind_eq_ok, require_eq_ok, h.fullClean ho, pure_eq_ok]
      constructor
      · rintro ⟨_, ⟨_, hreason, rfl⟩, rfl⟩
        exact ⟨hreason, rfl⟩
      · rintro ⟨hreason, rfl⟩
        exact ⟨_, ⟨(), hreason, rfl⟩, rfl⟩
    have happly : ∀ d, applyChannelPricing (db.putCommercialPrice { o with reason := reason }) o.pk
        entry = .ok d ↔ entry.Payable
          ∧ d = db.putCommercialPrice (o.brought (fun _ => reason) entry) := by
      intro d
      have hmem : { o with reason := reason } ∈
          (db.putCommercialPrice { o with reason := reason }).commercialPrices :=
        (Db.mem_putCommercialPrice ho (by rfl)).mpr (Or.inl rfl)
      rw [show o.pk = ({ o with reason := reason } : CommercialPrice).pk from rfl,
        applyChannelPricing_eq_ok hmem, Db.putCommercialPrice_putCommercialPrice _ (by simp)]
      rfl
    simp only [bind_eq_ok, hset, Db.skips, hfind, Option.isNone_some, Bool.false_and, forall_const]
    constructor
    · rintro ⟨_, ⟨hreason, rfl⟩, hdb⟩
      obtain ⟨hpay, rfl⟩ := (happly _).mp hdb
      exact ⟨hpay, hreason, rfl⟩
    · rintro ⟨hpay, hreason, rfl⟩
      exact ⟨_, ⟨hreason, rfl⟩, (happly _).mpr ⟨hpay, rfl⟩⟩
  | none =>
    simp only [Db.skips, hfind, Option.isNone_none, Bool.not_false, Bool.true_and]
    by_cases hblank : entry.isBlank = true
    · simp only [hblank, if_true, pure_eq_ok, Bool.true_eq_false, false_implies, true_and]
      rw [eq_comm]
      exact (and_iff_right (ChannelPricing.payable_of_isBlank hblank)).symm
    · rw [Bool.not_eq_true] at hblank
      simp only [hblank, Bool.false_eq_true, if_false, bind_eq_ok, forall_const]
      have hcreate : ∀ r, _ ↔ _ := fun r =>
        createCommercialPrice_eq_ok ⟨b.productId, some b.pk, channel⟩ reason (r := r) hp
      have happly : _ ↔ entry.Payable ∧ db' = _ :=
        applyChannelPricing_inserted db ⟨b.productId, some b.pk, channel⟩ reason false entry
      constructor
      · rintro ⟨_, hr, hdb⟩
        obtain ⟨-, hreason, -, rfl⟩ := (hcreate _).mp hr
        obtain ⟨hpay, rfl⟩ := happly.mp hdb
        exact ⟨hpay, hreason, rfl⟩
      · rintro ⟨hpay, hreason, hdb⟩
        refine ⟨_, (hcreate _).mpr ⟨hfind, hreason, ?_, rfl⟩, happly.mpr ⟨hpay, hdb⟩⟩
        rintro k ⟨⟩
        exact ⟨b, Table.get?_self hb, rfl⟩

end OffersOk

/-! ### What the pricing services do -/

/-- The same offer, at two times. -/
def CommercialPrice.SameScope (o o' : CommercialPrice) : Prop := o'.scope = o.scope

theorem CommercialPrice.SameScope.refl (o : CommercialPrice) : o.SameScope o := rfl

/-- An offer has its scope through two steps. -/
theorem CommercialPrice.SameScope.trans (o o₁ o₂ : CommercialPrice) (h : o.SameScope o₁)
    (h' : o₁.SameScope o₂) : o.SameScope o₂ := Eq.trans h' h

/-- The offers change, and nothing else; the invariant stays, and no offer is lost or moved to
    another scope. -/
structure OffersMove (db db' : Db) : Prop where
  frame : db' = { db with commercialPrices := db'.commercialPrices }
  kept : OffersOk db → OffersOk db'
  evolves : Table.Evolves CommercialPrice.SameScope db.commercialPrices db'.commercialPrices

/-- A saved offer is still the offer it was. -/
structure CommercialPrice.Saves (o o' : CommercialPrice) : Prop where
  pk : o'.pk = o.pk
  scope : o'.scope = o.scope
  reason : o.reason ∈ CommercialPrice.reasons → o'.reason ∈ CommercialPrice.reasons
  amounts : o.AmountsOk → o'.AmountsOk

/-- What the services store as an amount fits its columns. -/
theorem fits_of_priceAmount {currency : Currency} {price : Decimal} {originalPrice : Option Decimal}
    {a : PriceAmount} (h : priceAmount currency price originalPrice = .ok a) :
    a.price < 10 ^ 10 ∧ ∀ c ∈ a.originalPrice, a.price ≤ c ∧ c < 10 ^ 10 := by
  obtain ⟨hpay, horig, -, hprice, horiginal⟩ := priceAmount_eq_ok.mp h
  rw [hprice, horiginal]
  refine ⟨hpay.cents_lt, fun c hc => ?_⟩
  obtain ⟨original, hmem, rfl⟩ := Option.map_eq_some_iff.mp hc
  obtain ⟨hpay', hle⟩ := horig original hmem
  refine ⟨?_, hpay'.cents_lt⟩
  have hcents : (price.cents : ℚ) ≤ original.cents := by
    rw [hpay.cents_eq, hpay'.cents_eq]
    linarith
  exact_mod_cast hcents

namespace OffersMove

variable {db db₁ db' : Db}

/-- Doing nothing moves no offer. -/
theorem refl (db : Db) : OffersMove db db :=
  ⟨rfl, id, Table.Evolves.refl CommercialPrice.SameScope.refl _⟩

/-- Two moves are one. -/
theorem trans (h : OffersMove db db₁) (h' : OffersMove db₁ db') : OffersMove db db' where
  frame := by rw [h'.frame, h.frame]
  kept := fun hok => h'.kept (h.kept hok)
  evolves := h.evolves.trans CommercialPrice.SameScope.trans h'.evolves

/-- An edit that saves the offer as such is a move. -/
theorem edit {pk : ℕ} {edit : CommercialPrice → Result CommercialPrice}
    (hedit : ∀ o o', edit o = .ok o' → o.Saves o') (h : editCommercialPrice db pk edit = .ok db') :
    OffersMove db db' := by
  obtain ⟨o, ho, -, o', ho', rfl⟩ := editCommercialPrice_eq_ok.mp h
  have hsaves := hedit o o' ho'
  exact ⟨rfl, fun hok => hok.put ho hsaves.pk hsaves.scope (hsaves.reason (hok.reason o ho))
    (hsaves.amounts (hok.amounts o ho)), 
    Table.evolves_put CommercialPrice.SameScope.refl ho hsaves.pk hsaves.scope⟩

/-- Setting an amount edits one offer. -/
theorem setPriceAmount {pk : ℕ} {currency : Currency} {price : Decimal}
    {originalPrice : Option Decimal}
    (h : SwedeSweets.setPriceAmount db pk currency price originalPrice = .ok db') :
    OffersMove db db' := by
  refine edit (fun o o' ho' => ?_) h
  obtain ⟨a, ha, rfl⟩ := map_eq_ok.mp ho'
  obtain ⟨hprice, horiginal⟩ := fits_of_priceAmount ha
  exact ⟨rfl, rfl, id, fun hok => hok.withAmount hprice horiginal⟩

/-- Removing an amount edits one offer. -/
theorem removePriceAmount {pk : ℕ} {currency : Currency}
    (h : SwedeSweets.removePriceAmount db pk currency = .ok db') : OffersMove db db' := by
  refine edit (fun o o' ho' => ?_) h
  obtain rfl := Except.ok.inj ho'
  exact ⟨rfl, rfl, id, fun hok => hok.withoutAmount currency⟩

/-- Setting the reason edits one offer. -/
theorem setCommercialPriceReason {pk : ℕ} {reason : String}
    (h : SwedeSweets.setCommercialPriceReason db pk reason = .ok db') : OffersMove db db' := by
  refine edit (fun o o' ho' => ?_) h
  simp only [bind_eq_ok, require_eq_ok, pure_eq_ok] at ho'
  obtain ⟨_, hclean, rfl⟩ := ho'
  simp only [CommercialPrice.fullClean, Bool.and_eq_true, List.contains_eq_mem,
    decide_eq_true_eq] at hclean
  exact ⟨rfl, rfl, fun _ => hclean.1.1.2, fun hok => ⟨hok.sorted, hok.bounded, hok.original⟩⟩

/-- Enabling or disabling edits one offer. -/
theorem setCommercialPriceEnabled {pk : ℕ} {enabled : Bool}
    (h : SwedeSweets.setCommercialPriceEnabled db pk enabled = .ok db') : OffersMove db db' := by
  refine edit (fun o o' ho' => ?_) h
  obtain rfl := Except.ok.inj ho'
  exact ⟨rfl, rfl, id, fun hok => ⟨hok.sorted, hok.bounded, hok.original⟩⟩

/-- An offer without amounts has them in order. -/
theorem amountsOk_nil {o : CommercialPrice} (h : o.amounts = []) : o.AmountsOk := by
  refine ⟨?_, ?_, ?_⟩ <;> simp [h]

/-- A created offer is for a scope that was free. -/
theorem createCommercialPrice {productPk : ℕ} {channel : Channel} {batchPk : Option ℕ}
    {reason : String} {r : Db × CommercialPrice}
    (h : SwedeSweets.createCommercialPrice db productPk channel batchPk reason = .ok r) :
    OffersMove db r.1 := by
  have hfields := h
  simp only [SwedeSweets.createCommercialPrice, bind_eq_ok, require_eq_ok, pure_eq_ok] at hfields
  obtain ⟨_, -, _, hclean, -⟩ := hfields
  simp only [CommercialPrice.fullClean, Bool.and_eq_true] at hclean
  have hp : (db.products.get? productPk).isSome = true := hclean.1.1.1
  obtain ⟨hfree, hreason, hbatch, rfl⟩ :=
    (createCommercialPrice_eq_ok ⟨productPk, batchPk, channel⟩ reason hp).mp h
  exact ⟨rfl, fun hok => hok.insert hfree hp hbatch hreason (amountsOk_nil rfl),
    Table.evolves_insert CommercialPrice.SameScope.refl _ _⟩

/-- The standard offer is inserted when it is missing. -/
theorem ensureStandardOffer {productPk : ℕ} {channel : Channel} {r : Db × CommercialPrice}
    (h : SwedeSweets.ensureStandardOffer db productPk channel = .ok r) : OffersMove db r.1 := by
  simp only [SwedeSweets.ensureStandardOffer, bind_eq_ok, require_eq_ok] at h
  obtain ⟨_, rfl, h⟩ := h
  rw [getProductCommercialPrice_eq] at h
  cases hfind : db.offerFor ⟨productPk, none, .business⟩ with
  | some existing =>
    simp only [hfind, pure_eq_ok] at h
    rw [← h]
    exact refl db
  | none =>
    simp only [hfind, bind_eq_ok, require_eq_ok, pure_eq_ok] at h
    obtain ⟨_, hp, rfl⟩ := h
    refine ⟨rfl, fun hok => hok.insert hfind hp (by simp [newCommercialPrice]) ?_
      (amountsOk_nil rfl), Table.evolves_insert CommercialPrice.SameScope.refl _ _⟩
    simp [newCommercialPrice, CommercialPrice.reasons]

/-- A form's amount is set or removed. -/
theorem setOrRemoveAmount {pk : ℕ} {currency : Currency} {amount : Option Decimal}
    (h : SwedeSweets.setOrRemoveAmount db pk currency amount = .ok db') : OffersMove db db' := by
  cases amount with
  | none => exact removePriceAmount h
  | some amount => exact setPriceAmount h

/-- A form's entry is three edits of one offer. -/
theorem applyChannelPricing {pk : ℕ} {entry : ChannelPricing}
    (h : SwedeSweets.applyChannelPricing db pk entry = .ok db') : OffersMove db db' := by
  simp only [SwedeSweets.applyChannelPricing, bind_eq_ok] at h
  obtain ⟨_, heur, _, hsek, henabled⟩ := h
  exact ((setOrRemoveAmount heur).trans (setOrRemoveAmount hsek)).trans
    (setCommercialPriceEnabled henabled)

/-- The product form of one channel. -/
theorem updateProductChannelPricing {productPk : ℕ} {channel : Channel} {entry : ChannelPricing}
    (h : SwedeSweets.updateProductChannelPricing db productPk channel entry = .ok db') :
    OffersMove db db' := by
  unfold SwedeSweets.updateProductChannelPricing at h
  cases hfind : getProductCommercialPrice db productPk channel with
  | some commercialPrice =>
    simp only [hfind] at h
    exact applyChannelPricing h
  | none =>
    simp only [hfind] at h
    split_ifs at h with hch hblank
    · simp only [bind_eq_ok] at h
      obtain ⟨r, hr, happly⟩ := h
      exact (ensureStandardOffer hr).trans (applyChannelPricing happly)
    · obtain rfl := Except.ok.inj h
      exact refl db
    · simp only [bind_eq_ok] at h
      obtain ⟨r, hr, happly⟩ := h
      exact (createCommercialPrice hr).trans (applyChannelPricing happly)

/-- The batch form of one channel. -/
theorem updateBatchChannelPricing {batch : InventoryBatch} {channel : Channel} {reason : String}
    {entry : ChannelPricing}
    (h : SwedeSweets.updateBatchChannelPricing db batch channel reason entry = .ok db') :
    OffersMove db db' := by
  unfold SwedeSweets.updateBatchChannelPricing at h
  -- The reason is written before the entry.
  cases hfind : getBatchCommercialPrice db batch.pk channel with
  | some commercialPrice =>
    simp only [hfind, bind_eq_ok] at h
    obtain ⟨_, hreason, happly⟩ := h
    exact (setCommercialPriceReason hreason).trans (applyChannelPricing happly)
  | none =>
    simp only [hfind] at h
    split_ifs at h with hblank
    · obtain rfl := Except.ok.inj h
      exact refl db
    · simp only [bind_eq_ok] at h
      obtain ⟨r, hr, happly⟩ := h
      exact (createCommercialPrice hr).trans (applyChannelPricing happly)

/-- The product form, channel by channel. -/
theorem updateProductStandardPricing {productPk : ℕ} {business retail : ChannelPricing}
    (h : SwedeSweets.updateProductStandardPricing db productPk business retail = .ok db') :
    OffersMove db db' := by
  simp only [SwedeSweets.updateProductStandardPricing, bind_eq_ok] at h
  obtain ⟨_, hbusiness, hretail⟩ := h
  exact (updateProductChannelPricing hbusiness).trans (updateProductChannelPricing hretail)

/-- The batch form, channel by channel. -/
theorem updateBatchSpecialPricing {batch : InventoryBatch} {reason : String}
    {business retail : ChannelPricing}
    (h : SwedeSweets.updateBatchSpecialPricing db batch reason business retail = .ok db') :
    OffersMove db db' := by
  simp only [SwedeSweets.updateBatchSpecialPricing, bind_eq_ok] at h
  obtain ⟨_, hbusiness, hretail⟩ := h
  exact (updateBatchChannelPricing hbusiness).trans (updateBatchChannelPricing hretail)

end OffersMove

end SwedeSweets
