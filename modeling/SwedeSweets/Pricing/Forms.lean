import SwedeSweets.Pricing.Effects

namespace SwedeSweets

open Relational Fallible

/-!
# The pricing forms, one channel at a time

* `Db.bring` — the offer of one scope brought to an entry of a form, created where it is missing;
  `updateProductChannelPricing_eq_ok` says that this is what the form of a product does.
* `Db.Settled` — what is on file for a scope is what the form says; so it is after the form
  (`Db.settled_bring`), and then the form writes nothing (`Db.Settled.bring_eq`).
-/

section

variable {db db' : Db} {o : CommercialPrice}

/-! ### Bringing a scope to an entry -/

/-- The offer for a scope. -/
def Db.offerFor (db : Db) (s : CommercialPrice.Scope) : Option CommercialPrice :=
  db.commercialPrices.rows.find? (CommercialPrice.isFor s)

/-- The selector of product-wide offers reads the offer of its scope. -/
theorem getProductCommercialPrice_eq (db : Db) (productPk : ℕ) (channel : Channel) :
    getProductCommercialPrice db productPk channel = db.offerFor ⟨productPk, none, channel⟩ := by
  unfold getProductCommercialPrice Db.offerFor CommercialPrice.isFor
  congr 1
  funext o
  exact Bool.and_comm _ _

/-- The selector of batch offers reads the offer of its scope. -/
theorem getBatchCommercialPrice_eq (db : Db) (productPk batchPk : ℕ) (channel : Channel) :
    getBatchCommercialPrice db batchPk channel
      = db.offerFor ⟨productPk, some batchPk, channel⟩ := by
  unfold getBatchCommercialPrice Db.offerFor CommercialPrice.isFor
  congr 1
  funext o
  exact Bool.and_comm _ _

/-- The offer of a scope is on file and is for that scope. -/
theorem Db.offerFor_eq_some {s : CommercialPrice.Scope} (h : db.offerFor s = some o) :
    o ∈ db.commercialPrices ∧ o.isFor s = true :=
  ⟨List.mem_of_find?_eq_some h, List.find?_some h⟩

/-- A scope is free when no offer is for it. -/
theorem Db.offerFor_eq_none {s : CommercialPrice.Scope} :
    db.offerFor s = none ↔ ∀ o ∈ db.commercialPrices, o.isFor s = false := by
  simp [offerFor, Table.mem_def]

/-- The row of an offer that was missing, as a form leaves it. -/
def CommercialPrice.Scope.newOffer (s : CommercialPrice.Scope) (reason : String)
    (entry : ChannelPricing) : NewRow CommercialPrice where
  make pk := ⟨pk, s.productId, s.batchId, s.channel, reason, entry.enabled, entry.amounts⟩
  pk_make _ := rfl

/-- A form that says nothing about a missing offer leaves it missing, unless the offer is one that
    every product has. -/
def Db.skips (db : Db) (s : CommercialPrice.Scope) (always : Bool) (entry : ChannelPricing) :
    Bool :=
  (db.offerFor s).isNone && !always && entry.isBlank

/-- The offer brought to an entry, with its reason rewritten. -/
def CommercialPrice.brought (o : CommercialPrice) (reason : String → String)
    (entry : ChannelPricing) : CommercialPrice :=
  { o with reason := reason o.reason, enabled := entry.enabled, amounts := entry.amounts }

@[simp] theorem CommercialPrice.brought_pk (o : CommercialPrice) (reason : String → String)
    (entry : ChannelPricing) : (o.brought reason entry).pk = o.pk := rfl

/-- Bringing an offer to an entry keeps its scope. -/
@[simp] theorem CommercialPrice.isFor_brought (s : CommercialPrice.Scope) (o : CommercialPrice)
    (reason : String → String) (entry : ChannelPricing) :
    (o.brought reason entry).isFor s = o.isFor s := rfl

/-- A new offer is for the scope it was made for. -/
@[simp] theorem CommercialPrice.isFor_newOffer (s : CommercialPrice.Scope) (reason : String)
    (entry : ChannelPricing) (pk : ℕ) : ((s.newOffer reason entry).make pk).isFor s = true := by
  unfold isFor Scope.newOffer
  cases s.batchId <;> simp

/-- The database with the offer of a scope brought to an entry. -/
def Db.bring (db : Db) (s : CommercialPrice.Scope) (reason : String → String) (always : Bool)
    (entry : ChannelPricing) : Db :=
  match db.offerFor s with
  | some o => db.putCommercialPrice (o.brought reason entry)
  | none =>
      if db.skips s always entry then db
      else { db with commercialPrices := db.commercialPrices.insert (s.newOffer (reason "") entry) }

/-- A new offer is the configured one as soon as the form is through with it. -/
theorem Db.putCommercialPrice_inserted (db : Db) {s : CommercialPrice.Scope} {reason : String}
    {enabled : Bool} (entry : ChannelPricing) :
    (db.insertCommercialPrice (newCommercialPrice s.productId s.batchId s.channel reason
        enabled)).1.putCommercialPrice ((db.insertCommercialPrice (newCommercialPrice s.productId
          s.batchId s.channel reason enabled)).2.configured entry)
      = { db with commercialPrices := db.commercialPrices.insert (s.newOffer reason entry) } := by
  unfold putCommercialPrice insertCommercialPrice
  congr 1
  exact Table.put_insert _ rfl

/-- An offer just inserted is brought to an entry. -/
theorem applyChannelPricing_inserted (db : Db) (s : CommercialPrice.Scope) (reason : String)
    (enabled : Bool) (entry : ChannelPricing) :
    applyChannelPricing (db.insertCommercialPrice (newCommercialPrice s.productId s.batchId
        s.channel reason enabled)).1 (db.insertCommercialPrice (newCommercialPrice s.productId
          s.batchId s.channel reason enabled)).2.pk entry = .ok db' ↔
      entry.Payable ∧ db' = { db with
        commercialPrices := db.commercialPrices.insert (s.newOffer reason entry) } := by
  have hmem : (db.insertCommercialPrice (newCommercialPrice s.productId s.batchId s.channel reason
      enabled)).2 ∈ (db.insertCommercialPrice (newCommercialPrice s.productId s.batchId s.channel
        reason enabled)).1.commercialPrices := Table.mem_insert.mpr (Or.inr rfl)
  rw [applyChannelPricing_eq_ok hmem, Db.putCommercialPrice_inserted]

/-- A blank entry has no amount that could be refused. -/
theorem ChannelPricing.payable_of_isBlank {entry : ChannelPricing} (h : entry.isBlank = true) :
    entry.Payable := by
  simp only [isBlank, Bool.and_eq_true, decide_eq_true_eq] at h
  obtain ⟨⟨heur, hsek⟩, -⟩ := h
  simp [Payable, heur, hsek]

/-- A new offer is created iff its scope is free and it passes its checks. -/
theorem createCommercialPrice_eq_ok (s : CommercialPrice.Scope) (reason : String)
    {r : Db × CommercialPrice} (hp : (db.products.get? s.productId).isSome = true) :
    createCommercialPrice db s.productId s.channel s.batchId reason = .ok r ↔
      db.offerFor s = none ∧ reason ∈ CommercialPrice.reasons
        ∧ (∀ k ∈ s.batchId, ∃ b, db.batches.get? k = some b ∧ b.productId = s.productId)
        ∧ r = db.insertCommercialPrice
          (newCommercialPrice s.productId s.batchId s.channel reason false) := by
  have hany : db.commercialPrices.rows.any (CommercialPrice.isFor s) = false
      ↔ db.offerFor s = none := by
    rw [Db.offerFor_eq_none, List.any_eq_false]
    simp [Table.mem_def]
  simp only [createCommercialPrice, bind_eq_ok, require_eq_ok, pure_eq_ok]
  -- `full_clean` checks the product, the reason, the batch and the scope, in this order.
  constructor
  · rintro ⟨_, hfree, _, hclean, rfl⟩
    refine ⟨hany.mp hfree, ?_, ?_, rfl⟩
    · simp only [CommercialPrice.fullClean, Bool.and_eq_true] at hclean
      simpa [newCommercialPrice] using hclean.1.1.2
    · intro k hk
      simp only [CommercialPrice.fullClean, Bool.and_eq_true] at hclean
      have hb := hclean.1.2
      rw [show (CommercialPrice.batchId _) = some k from hk, Option.all_some,
        Option.any_eq_true] at hb
      obtain ⟨b, hb, hbp⟩ := hb
      exact ⟨b, hb, of_decide_eq_true hbp⟩
  · rintro ⟨hfree, hreason, hbatch, rfl⟩
    refine ⟨(), hany.mpr hfree, (), ?_, rfl⟩
    simp only [CommercialPrice.fullClean, Bool.and_eq_true]
    refine ⟨⟨⟨hp, by simpa [newCommercialPrice] using hreason⟩, ?_⟩, ?_⟩
    · cases hk : s.batchId with
      | none => rfl
      | some k =>
        obtain ⟨b, hb, hbp⟩ := hbatch k hk
        simp [newCommercialPrice, hb, hbp]
    · rw [List.all_eq_true]
      intro x hx
      have := Db.offerFor_eq_none.mp hfree x hx
      simp only [Bool.or_eq_true, Bool.not_eq_true']
      exact Or.inr this

/-- **A product, one channel.** The form brings the product-wide offer to the entry. -/
theorem updateProductChannelPricing_eq_ok {productPk : ℕ} {channel : Channel}
    {entry : ChannelPricing} (hp : (db.products.get? productPk).isSome = true) :
    updateProductChannelPricing db productPk channel entry = .ok db' ↔ entry.Payable
      ∧ db' = db.bring ⟨productPk, none, channel⟩ id (channel = .business) entry := by
  unfold updateProductChannelPricing Db.bring
  rw [getProductCommercialPrice_eq]
  -- An offer on file is brought to the entry; a missing one may first have to be created.
  cases hfind : db.offerFor ⟨productPk, none, channel⟩ with
  | some o => exact applyChannelPricing_eq_ok (Db.offerFor_eq_some hfind).1
  | none =>
    simp only [Db.skips, hfind, Option.isNone_none, Bool.true_and]
    -- The standard BUSINESS offer is ensured even by a blank entry.
    by_cases hch : channel = .business
    · subst hch
      have hensure : ensureStandardOffer db productPk .business
          = .ok (db.insertCommercialPrice (newCommercialPrice productPk none .business "" true)) := by
        simp only [ensureStandardOffer, getProductCommercialPrice_eq, hfind, bind_eq_ok,
          require_eq_ok, pure_eq_ok]
        exact ⟨(), trivial, (), hp, trivial⟩
      simp only [if_true, hensure, decide_true, Bool.not_true, Bool.false_and, Bool.false_eq_true,
        if_false]
      exact applyChannelPricing_inserted db ⟨productPk, none, .business⟩ "" true entry
    · simp only [hch, if_false, decide_false, Bool.not_false, Bool.true_and]
      by_cases hblank : entry.isBlank = true
      · simp only [hblank, if_true, pure_eq_ok]
        rw [eq_comm]
        exact (and_iff_right (ChannelPricing.payable_of_isBlank hblank)).symm
      · rw [Bool.not_eq_true] at hblank
        simp only [hblank, Bool.false_eq_true, if_false, bind_eq_ok]
        have hcreate : ∀ r, _ ↔ _ :=
          fun r => createCommercialPrice_eq_ok ⟨productPk, none, channel⟩ "" (r := r) hp
        have happly' : _ ↔ entry.Payable ∧ db' = _ :=
          applyChannelPricing_inserted db ⟨productPk, none, channel⟩ "" false entry
        constructor
        · rintro ⟨_, hr, happly⟩
          obtain ⟨-, -, -, rfl⟩ := (hcreate _).mp hr
          exact happly'.mp happly
        · intro h
          refine ⟨_, (hcreate _).mpr ⟨hfind, by decide, by simp, rfl⟩, ?_⟩
          exact happly'.mpr h

/-! ### What a form leaves behind -/

/-- Only the offers of the scope are touched. -/
theorem Db.mem_bring {s : CommercialPrice.Scope} {reason : String → String} {always : Bool}
    {entry : ChannelPricing} (ho : o.isFor s = false) :
    o ∈ (db.bring s reason always entry).commercialPrices ↔ o ∈ db.commercialPrices := by
  unfold bring
  -- The row that is written is for the scope, and `o` is not.
  cases hfind : db.offerFor s with
  | some x =>
    obtain ⟨hx, hxs⟩ := offerFor_eq_some hfind
    have hne : ∀ y : CommercialPrice, y.isFor s = true → o ≠ y := by
      rintro y hy rfl
      rw [ho] at hy
      cases hy
    simp only
    rw [mem_putCommercialPrice hx (CommercialPrice.brought_pk ..)]
    constructor
    · rintro (heq | ⟨hmem, -⟩)
      · exact absurd heq (hne _ hxs)
      · exact hmem
    · intro hmem
      exact Or.inr ⟨hmem, fun hpk => hne x hxs (Table.eq_of_pk_eq hmem hx hpk)⟩
  | none =>
    simp only
    split_ifs with hskip
    · exact Iff.rfl
    · refine Table.mem_insert.trans ⟨fun h => h.resolve_right ?_, Or.inl⟩
      rintro rfl
      rw [CommercialPrice.isFor_newOffer] at ho
      cases ho

/-- A form writes offers and nothing else. -/
theorem Db.bring_frame (db : Db) (s : CommercialPrice.Scope) (reason : String → String)
    (always : Bool) (entry : ChannelPricing) : db.bring s reason always entry
      = { db with commercialPrices := (db.bring s reason always entry).commercialPrices } := by
  unfold bring
  cases db.offerFor s with
  | some o => rfl
  | none =>
    simp only
    split_ifs <;> rfl

/-- What is on file for a scope of another channel stays. -/
theorem Db.offerFor_bring_of_ne {s s' : CommercialPrice.Scope} {reason : String → String}
    {always : Bool} {entry : ChannelPricing} (h : s'.channel ≠ s.channel) :
    (db.bring s reason always entry).offerFor s' = db.offerFor s' := by
  have hne : ∀ x : CommercialPrice, x.channel = s.channel → x.isFor s' = false := by
    intro x hx
    simp [CommercialPrice.isFor, hx, Ne.symm h]
  -- The rows for the other scope are the same, so the first of them is.
  have hselect : (db.bring s reason always entry).commercialPrices.select
      (CommercialPrice.isFor s') = db.commercialPrices.select (CommercialPrice.isFor s') := by
    unfold bring
    cases hfind : db.offerFor s with
    | some x =>
      obtain ⟨hx, hxs⟩ := offerFor_eq_some hfind
      have hch : x.channel = s.channel := by
        simp only [CommercialPrice.isFor, Bool.and_eq_true, decide_eq_true_eq] at hxs
        exact hxs.1
      exact Table.select_put_of_disjoint hx rfl (hne x hch) (hne (x.brought reason entry) hch)
    | none =>
      simp only
      split_ifs with hskip
      · rfl
      · have hnew := hne ((s.newOffer (reason "") entry).make db.commercialPrices.next) rfl
        exact Table.select_insert_of_disjoint (by simp [hnew])
  unfold offerFor
  rw [← List.head?_filter, ← List.head?_filter]
  exact congrArg List.head? hselect

/-- What is on file for a scope is what the form says. -/
structure Db.Settled (db : Db) (s : CommercialPrice.Scope) (reason : String → String)
    (always : Bool) (entry : ChannelPricing) : Prop where
  offer : ∀ o, db.offerFor s = some o → o.brought reason entry = o
  missing : db.offerFor s = none → db.skips s always entry = true

section

variable {s s' : CommercialPrice.Scope} {reason reason' : String → String} {always always' : Bool}
  {entry entry' : ChannelPricing}

/-- What the form says is not written a second time. -/
theorem Db.Settled.bring_eq (h : db.Settled s reason always entry) :
    db.bring s reason always entry = db := by
  unfold Db.bring
  cases hfind : db.offerFor s with
  | some o =>
    simp only [h.offer o hfind]
    unfold putCommercialPrice
    rw [Table.put_self (Db.offerFor_eq_some hfind).1]
  | none => simp only [h.missing hfind, if_true]

/-- A skipped form writes nothing. -/
theorem Db.bring_of_skips (h : db.skips s always entry = true) :
    db.bring s reason always entry = db := by
  have hnone : db.offerFor s = none := by
    simp only [skips, Bool.and_eq_true, Option.isNone_iff_eq_none] at h
    exact h.1.1
  unfold bring
  simp only [hnone, h, if_true]

/-- The offer of the scope after a form. -/
theorem Db.offerFor_bring (db : Db) (s : CommercialPrice.Scope) (reason : String → String)
    (always : Bool) (entry : ChannelPricing) :
    (db.bring s reason always entry).offerFor s =
      if db.skips s always entry then none
      else some (((db.offerFor s).getD ((s.newOffer "" entry).make
        db.commercialPrices.next)).brought reason entry) := by
  unfold bring skips
  cases hfind : db.offerFor s with
  | some x =>
    obtain ⟨hx, hxs⟩ := offerFor_eq_some hfind
    simp only [Option.isNone_some, Bool.false_and, Bool.false_eq_true, if_false, Option.getD_some]
    show (db.commercialPrices.rows.map _).find? _ = _
    -- overwriting the offer does not change which rows are for the scope
    have hsame : ∀ y ∈ db.commercialPrices.rows, (CommercialPrice.isFor s ∘ fun y =>
        if Row.pk y = Row.pk (x.brought reason entry) then x.brought reason entry else y) y
          = y.isFor s := by
      intro y hy
      by_cases hpk : Row.pk y = Row.pk (x.brought reason entry)
      · have hyx : y = x := Table.eq_of_pk_eq (t := db.commercialPrices) hy hx hpk
        simp [hyx]
      · simp only [Function.comp_apply, if_neg hpk]
    rw [List.find?_map, ← List.head?_filter, List.filter_congr hsame, List.head?_filter]
    have hrow : db.commercialPrices.rows.find? (CommercialPrice.isFor s) = some x := hfind
    rw [hrow]
    simp
  | none =>
    simp only [Option.isNone_none, Bool.true_and, Option.getD_none]
    split_ifs with hskip
    · exact hfind
    · show (db.commercialPrices.rows ++ [_]).find? _ = _
      have hnone : db.commercialPrices.rows.find? (CommercialPrice.isFor s) = none := hfind
      rw [List.find?_append, hnone, Option.none_or, List.find?_singleton,
        if_pos (CommercialPrice.isFor_newOffer ..)]
      rfl

/-- After the form, what is on file is what it says. -/
theorem Db.settled_bring (hreason : ∀ r, reason (reason r) = reason r) :
    (db.bring s reason always entry).Settled s reason always entry := by
  have hoffer := db.offerFor_bring s reason always entry
  refine ⟨fun o ho => ?_, fun hnone => ?_⟩
  · rw [ho] at hoffer
    split_ifs at hoffer with hskip
    obtain rfl := Option.some.inj hoffer
    simp [CommercialPrice.brought, hreason]
  · rw [hnone] at hoffer
    split_ifs at hoffer with hskip
    simp only [skips, Bool.and_eq_true] at hskip ⊢
    exact ⟨⟨by simp [hnone], hskip.1.2⟩, hskip.2⟩

/-- A form of another channel does not matter. -/
theorem Db.Settled.bring (h : db.Settled s reason always entry) (hne : s.channel ≠ s'.channel) :
    (db.bring s' reason' always' entry').Settled s reason always entry := by
  have hsame : (db.bring s' reason' always' entry').offerFor s = db.offerFor s :=
    Db.offerFor_bring_of_ne hne
  refine ⟨fun o ho => h.offer o (hsame ▸ ho), fun hnone => ?_⟩
  have hskip := h.missing (hsame ▸ hnone)
  unfold skips at hskip ⊢
  rwa [hsame]

end

end

end SwedeSweets
