import SwedeSweets.Invariants.OrderLines

namespace SwedeSweets

open Relational Fallible Business

/-!
# The calls that change a draft

* `LineMutation` — the four calls that set the units of one line of a draft.  `Wrote` says what a
  successful one leaves, whichever it is: one line written, within the units that its own path
  finds available (`LineMutation.wrote`).
* `DraftMutation` — these and the two removals.
* `Db.productUnits` — the units of a product over the lines of an order, and how each call
  changes them (`Wrote.productUnits`, `DraftMutation.removed`).
-/

/-- One call that sets the units of a line of a draft. -/
inductive LineMutation where
  | addCatalogOffer (customer : ℕ) (product : Product) (commercialPriceId : ℕ) (quantity : ℤ)
  | addProduct (customer : ℕ) (product : Product) (quantity : ℤ)
  | setLine (orderPk orderLineId : ℕ) (quantity : ℤ)
  | setProduct (orderPk productId : ℕ) (quantity : ℤ)

/-- The units of a product on an order, over all its lines. -/
def Db.productUnits (db : Db) (orderPk productId : ℕ) : ℤ :=
  lineQuantity ((db.orderLines orderPk).filter (fun l => l.productId = productId))

namespace LineMutation

def run (rt : Runtime) (db : Db) : LineMutation → Result Db
  | .addCatalogOffer customer product commercialPriceId quantity =>
      (addCatalogOfferToDraftOrder rt db customer product commercialPriceId quantity).map Prod.fst
  | .addProduct customer product quantity =>
      (addProductToDraftOrder rt db customer product quantity).map Prod.fst
  | .setLine orderPk orderLineId quantity => setDraftLineQuantity rt db orderPk orderLineId quantity
  | .setProduct orderPk productId quantity =>
      setDraftProductQuantity rt db orderPk productId quantity

/-- The units the line is to have: what it had and what is added, or what is set. -/
def requested (old : Option OrderLine) : LineMutation → ℤ
  | .addCatalogOffer _ _ _ quantity => lineQuantity old.toList + quantity
  | .addProduct _ _ quantity => lineQuantity old.toList + quantity
  | .setLine _ _ quantity => quantity
  | .setProduct _ _ quantity => quantity

/-- The order the call is about: the draft it finds or opens for the customer, or the one given. -/
def OnDraft (rt : Runtime) (db : Db) (orderPk : ℕ) : LineMutation → Prop
  | .addCatalogOffer customer _ _ _ =>
      ∃ r, getOrCreateCustomerDraftOrder rt db customer = .ok r ∧ r.2.pk = orderPk
  | .addProduct customer _ _ =>
      ∃ r, getOrCreateCustomerDraftOrder rt db customer = .ok r ∧ r.2.pk = orderPk
  | .setLine k _ _ => k = orderPk
  | .setProduct k _ _ => k = orderPk

/-- The line of the draft the call is about. -/
def Names (l : OrderLine) : LineMutation → Prop
  | .addCatalogOffer _ product commercialPriceId _ =>
      l.productId = product.pk ∧ l.businessOfferSelection = some (some commercialPriceId)
  | .addProduct _ product _ => l.productId = product.pk ∧ l.businessOfferSelection = none
  | .setLine _ orderLineId _ => l.pk = orderLineId
  | .setProduct _ productId _ => l.productId = productId ∧ l.businessOfferSelection = none

/-- Whether the line of the call is one that was chosen from the catalog. -/
def explicit (old : Option OrderLine) : LineMutation → Bool
  | .addCatalogOffer .. => true
  | .addProduct .. => false
  | .setLine .. => old.any OrderLine.isExplicit
  | .setProduct .. => false

/-- Whether the guardrail of the call looks at all lines of the product, or at its own line. -/
def limitsProduct : LineMutation → Bool
  | .addProduct .. => false
  | _ => true

end LineMutation

/-! ### What one call writes -/

/-- A line of an order was overwritten by another version of it, or inserted. -/
inductive LineWrite (t : Table OrderLine) (k : ℕ) :
    Option OrderLine → OrderLine → Table OrderLine → Prop where
  | resized {l l' : OrderLine} (mem : l ∈ t) (order : l.orderId = k) (same : l.SameChoice l') :
      LineWrite t k (some l) l' (t.put l')
  | inserted (d : NewRow OrderLine) (order : (d.make t.next).orderId = k) :
      LineWrite t k none (d.make t.next) (t.insert d)

/-- A line that is written over is an old one, and stays the same choice. -/
theorem LineWrite.of_some {t t' : Table OrderLine} {k : ℕ} {l new : OrderLine}
    (h : LineWrite t k (some l) new t') : l ∈ t ∧ l.SameChoice new := by
  cases h with
  | resized mem _ same => exact ⟨mem, same⟩

/-- The line written is in the table, on its order. -/
theorem LineWrite.mem {t t' : Table OrderLine} {k : ℕ} {old : Option OrderLine} {new : OrderLine}
    (h : LineWrite t k old new t') :
    new ∈ t' ∧ new.orderId = k := by
  cases h with
  | resized mem order same =>
    exact ⟨(Table.mem_put ⟨_, mem, same.pk.symm⟩).mpr (Or.inl rfl), same.order.trans order⟩
  | inserted d order => exact ⟨Table.mem_insert.mpr (Or.inr rfl), order⟩

/-- What a successful call leaves: `new` in the place of `old`, on the draft `k`. -/
structure Wrote (rt : Runtime) (db : Db) (m : LineMutation) (k : ℕ) (old : Option OrderLine)
    (new : OrderLine) (db' : Db) : Prop where
  onDraft : m.OnDraft rt db k
  write : LineWrite db.lines k old new db'.lines
  named : m.Names new
  absent : old = none → ∀ l ∈ db.orderLines k, ¬ m.Names l
  kind : new.isExplicit = m.explicit old
  units : (new.quantityInUnits : ℤ) = m.requested old
  available : requireAvailable rt db new (m.requested old) = .ok ()
  limit : m.limitsProduct = true →
    db.productUnits k new.productId - lineQuantity old.toList + m.requested old
      ≤ maxQuantityPerProductPerOrder
  frame : ∃ orders lines, db' = { db with orders := orders, lines := lines }

section

variable {rt : Runtime} {db db' : Db}

/-- Opening a draft adds an order, if anything. -/
theorem getOrCreateDraft_frame {customer : ℕ} {r : Db × Order}
    (h : getOrCreateCustomerDraftOrder rt db customer = .ok r) :
    ∃ orders, r.1 = { db with orders := orders } := by
  obtain ⟨-, -, hdb | ⟨-, hdb⟩⟩ := getOrCreateDraft_eq_ok h
  · exact ⟨db.orders, hdb⟩
  · exact ⟨_, hdb⟩

/-- An explicit line is held against the catalog entry of its offer. -/
theorem requireAvailable_explicit {l : OrderLine} {k : ℕ} {quantity : ℤ} {row : CatalogProduct}
    {offer : CatalogOffer} (hselection : l.businessOfferSelection = some (some k))
    (hrow : getCatalogProduct rt db l.productId = .ok row)
    (hoffer : getCatalogOffer row k = .ok offer) :
    requireAvailable rt db l quantity = .ok () ↔ quantity ≤ offer.availableUnits := by
  unfold requireAvailable getExplicitOfferForOrderLine
  simp only [hselection, bind_eq_ok, hrow, Except.ok.injEq, exists_eq_left', hoffer, require_eq_ok]

/-- A legacy line is held against its product. -/
theorem requireAvailable_legacy {l : OrderLine} {quantity : ℤ}
    (hselection : l.businessOfferSelection = none) :
    requireAvailable rt db l quantity = .ok () ↔
      quantity ≤ (orderableQuantityByProductId rt db).getD l.productId 0 := by
  unfold requireAvailable requireOrderable
  simp only [hselection, require_eq_ok]

/-- What is available to a line does not depend on its units. -/
theorem requireAvailable_same {l l' : OrderLine} (h : l.SameChoice l') (quantity : ℤ) :
    requireAvailable rt db l' quantity = requireAvailable rt db l quantity := by
  unfold requireAvailable getExplicitOfferForOrderLine
  rw [h.selection, h.product]

/-- The legacy line found is a line for the product, without a selection. -/
theorem findLegacyLine_some {k p : ℕ} {l : OrderLine} (h : findLegacyLine db k p = some l) :
    l ∈ db.orderLines k ∧ l.productId = p ∧ l.businessOfferSelection = none := by
  refine ⟨List.mem_of_find?_eq_some h, ?_⟩
  simpa using List.find?_some h

/-- When no legacy line is found, the order has none for the product. -/
theorem findLegacyLine_none {k p : ℕ} (h : findLegacyLine db k p = none) :
    ∀ l ∈ db.orderLines k, ¬(l.productId = p ∧ l.businessOfferSelection = none) := by
  rintro l hl ⟨hproduct, hselection⟩
  have hno := List.find?_eq_none.mp h l hl
  simp [hproduct, hselection] at hno

/-! ### Units of a product -/

/-- The units of some lines of an order, as an aggregate over the line table. -/
theorem lineQuantity_filter (db : Db) (k : ℕ) (p : OrderLine → Bool) :
    lineQuantity ((db.orderLines k).filter p) = db.lines.total
      (fun l => if l.orderId = k ∧ p l = true then l.quantityInUnits else 0) := by
  have hcast : ∀ ls : List OrderLine,
      lineQuantity ls = ((ls.map OrderLine.quantityInUnits).sum : ℕ) := by
    intro ls
    unfold lineQuantity
    rw [Nat.cast_list_sum, List.map_map]
    rfl
  unfold Db.orderLines
  rw [hcast, Table.select, List.filter_filter]
  refine congrArg Nat.cast ((Table.sum_select db.lines _ _).trans (Table.total_congr (fun l _ => ?_)))
  by_cases ho : l.orderId = k <;> by_cases hp : p l = true <;> simp [ho, hp]

/-- The units of a product, summed over all lines. -/
theorem productUnits_eq (db : Db) (k p : ℕ) :
    db.productUnits k p = db.lines.total
      (fun l => if l.orderId = k ∧ l.productId = p then l.quantityInUnits else 0) := by
  unfold Db.productUnits
  simp only [lineQuantity_filter, decide_eq_true_eq]

/-- A sum over lines by what was chosen on them changes as the line written does. -/
theorem LineWrite.lineQuantity {k : ℕ} {old : Option OrderLine} {new : OrderLine}
    {t : Table OrderLine} {p : OrderLine → Bool} (h : LineWrite db.lines k old new t)
    (ht : db'.lines = t) (hp : ∀ {l l' : OrderLine}, l.SameChoice l' → p l' = p l) (k' : ℕ) :
    Business.lineQuantity ((db'.orderLines k').filter p)
        + (if k = k' ∧ p new = true then Business.lineQuantity old.toList else 0)
      = Business.lineQuantity ((db.orderLines k').filter p)
        + (if k = k' ∧ p new = true then (new.quantityInUnits : ℤ) else 0) := by
  rw [lineQuantity_filter, lineQuantity_filter, ht]
  cases h with
  -- the old row goes out of the sum and the new one comes in
  | @resized l l' mem order same =>
    have hput := Table.total_put mem same.pk
      (fun x => if x.orderId = k' ∧ p x = true then x.quantityInUnits else 0)
    rw [same.order, hp same, order] at hput
    rw [hp same, Option.toList_some, lineQuantity_singleton]
    by_cases hline : k = k' ∧ p l = true
    · rw [if_pos hline, if_pos hline] at hput ⊢
      exact_mod_cast hput
    · rw [if_neg hline, if_neg hline] at hput ⊢
      exact_mod_cast hput
  | inserted d order =>
    rw [Table.total_insert, Option.toList_none, lineQuantity_nil, ite_self, add_zero, order]
    push_cast
    rfl

/-- The units of the product of the line change as the line does, and no other units do. -/
theorem LineWrite.productUnits {k : ℕ} {old : Option OrderLine} {new : OrderLine}
    {t : Table OrderLine} (h : LineWrite db.lines k old new t) (ht : db'.lines = t) (k' p : ℕ) :
    db'.productUnits k' p
        + (if k = k' ∧ new.productId = p then Business.lineQuantity old.toList else 0)
      = db.productUnits k' p
        + (if k = k' ∧ new.productId = p then (new.quantityInUnits : ℤ) else 0) := by
  have hsum := h.lineQuantity ht (p := fun l => l.productId = p)
    (fun same => by simp only [same.product]) k'
  simp only [decide_eq_true_eq] at hsum
  exact hsum

/-- The units of a product are those of one of its lines and those of the others. -/
theorem productUnits_without {k : ℕ} {l : OrderLine} (hl : l ∈ db.orderLines k) :
    db.productUnits k l.productId = l.quantityInUnits
      + lineQuantity ((db.orderLines k).filter (fun x => x.productId = l.productId && x.pk ≠ l.pk)) := by
  obtain ⟨hmem, horder⟩ := Db.mem_orderLines.mp hl
  -- the line itself is counted once
  have hself : db.lines.total (fun x => if x.pk = l.pk then x.quantityInUnits else 0)
      = l.quantityInUnits :=
    (Table.total_eq_of_unique hmem (fun x hx hne =>
      if_neg (fun hpk => hne (Table.eq_of_pk_eq hx hmem hpk)))).trans (if_pos rfl)
  rw [productUnits_eq, lineQuantity_filter, ← hself, ← Nat.cast_add, ← Table.total_add]
  refine congrArg Nat.cast (Table.total_congr (fun x hx => ?_))
  by_cases hpk : x.pk = l.pk
  · obtain rfl : x = l := Table.eq_of_pk_eq hx hmem hpk
    simp [horder]
  · simp [hpk]

/-- A line is part of what its order has of its product. -/
theorem quantity_le_productUnits {k : ℕ} {l : OrderLine} (hl : l ∈ db.orderLines k) :
    (l.quantityInUnits : ℤ) ≤ db.productUnits k l.productId := by
  rw [productUnits_without hl]
  have hothers := lineQuantity_nonneg
    ((db.orderLines k).filter (fun x => x.productId = l.productId && x.pk ≠ l.pk))
  omega

/-! ### One lemma for each call -/

/-- The guardrail of a catalog addition counts all lines of the product. -/
theorem addCatalogOffer_limit {customer : ℕ} {product : Product} {k : ℕ} {quantity : ℤ}
    {r : Db × Order}
    (h : addCatalogOfferToDraftOrder rt db customer product k quantity = .ok r) :
    db.productUnits r.2.pk product.pk + quantity ≤ maxQuantityPerProductPerOrder := by
  rw [addCatalogOffer_eq] at h
  unfold addOffer at h
  simp only [bind_eq_ok, require_eq_ok, exists_const, requireUsualQuantity_eq_ok, pure_eq_ok] at h
  obtain ⟨-, row, -, offer, -, ⟨db₁, o⟩, hdraft, db₂, ⟨-, hlimit, -⟩, rfl⟩ := h
  obtain ⟨orders, hopened⟩ := getOrCreateDraft_frame hdraft
  have hopened : db₁ = { db with orders := orders } := hopened
  subst hopened
  exact hlimit

/-- Adding an offer writes one line. -/
theorem wrote_addCatalogOffer {customer : ℕ} {product : Product} {k : ℕ} {quantity : ℤ}
    {r : Db × Order}
    (h : addCatalogOfferToDraftOrder rt db customer product k quantity = .ok r) :
    ∃ old new, Wrote rt db (.addCatalogOffer customer product k quantity) r.2.pk old new r.1 := by
  have hlimit := addCatalogOffer_limit h
  obtain ⟨-, row, offer, hrow, hoffer, db₁, hdraft, hadd⟩ := addCatalogOffer_eq_ok h
  obtain ⟨orders, hopened⟩ := getOrCreateDraft_frame hdraft
  have hopened : db₁ = { db with orders := orders } := hopened
  subst hopened
  revert hlimit hdraft hadd
  generalize r.1 = db', r.2 = o
  intro hlimit hdraft hadd
  -- a line for the offer is resized, or a new one is inserted
  cases hadd with
  | @resized l l' found same total available =>
    obtain ⟨hl, hproduct, hselection⟩ := found
    obtain ⟨hmem, horder⟩ := Db.mem_orderLines.mp hl
    have hproduct' := same.product.trans hproduct
    have hselection' := same.selection.trans hselection
    have hunits : (l'.quantityInUnits : ℤ) = lineQuantity (some l).toList + quantity := by
      rw [Option.toList_some, lineQuantity_singleton, total]
    refine ⟨some l, l', ⟨_, hdraft, rfl⟩, LineWrite.resized hmem horder same,
      ⟨hproduct', hselection'⟩, fun hnone => (by cases hnone), congrArg Option.isSome hselection',
      hunits, ?_, fun _ => ?_, _, _, rfl⟩
    · rw [LineMutation.requested, ← hunits,
        requireAvailable_explicit hselection' (hproduct' ▸ hrow) hoffer]
      exact available
    · rw [LineMutation.requested, hproduct']
      omega
  | @inserted commercialOffer x absent known chosen ofProduct order line total available =>
    have hselection : ((explicitRow x k).make db.lines.next).businessOfferSelection
      = some (some k) := rfl
    have hproduct : ((explicitRow x k).make db.lines.next).productId = product.pk := line.1
    refine ⟨none, _, ⟨_, hdraft, rfl⟩, LineWrite.inserted (explicitRow x k) order,
      ⟨hproduct, hselection⟩, fun _ l hl hnamed => absent l ⟨hl, hnamed⟩, rfl, ?_,
      ?_, fun _ => ?_, _, _, rfl⟩
    · rw [LineMutation.requested, Option.toList_none, lineQuantity_nil, zero_add]
      exact total
    · rw [LineMutation.requested, Option.toList_none, lineQuantity_nil, zero_add,
        requireAvailable_explicit hselection (hproduct ▸ hrow) hoffer]
      exact available
    · rw [LineMutation.requested, hproduct, Option.toList_none, lineQuantity_nil]
      omega

/-- Setting a line's quantity writes this line. -/
theorem wrote_setLine {k lineId : ℕ} {quantity : ℤ}
    (h : setDraftLineQuantity rt db k lineId quantity = .ok db') :
    ∃ l new, l.pk = lineId ∧ Wrote rt db (.setLine k lineId quantity) k (some l) new db' := by
  obtain ⟨l, hl, hpk, l', hsame, hunits, hlimit, havailable, rfl⟩ := setDraftLineQuantity_eq_ok h
  obtain ⟨hmem, horder⟩ := Db.mem_orderLines.mp hl
  refine ⟨l, l', hpk, rfl, LineWrite.resized hmem horder hsame, hsame.pk.trans hpk,
    fun hnone => (by cases hnone), congrArg Option.isSome hsame.selection, hunits, ?_, fun _ => ?_,
    _, _, rfl⟩
  · rw [requireAvailable_same hsame]
    exact havailable
  · rw [LineMutation.requested, hsame.product, productUnits_without hl, Option.toList_some,
      lineQuantity_singleton]
    omega

/-- Setting a product's quantity writes its legacy line. -/
theorem wrote_setProduct {k productId : ℕ} {quantity : ℤ}
    (h : setDraftProductQuantity rt db k productId quantity = .ok db') :
    ∃ l new, Wrote rt db (.setProduct k productId quantity) k (some l) new db' := by
  unfold setDraftProductQuantity getLegacyLine at h
  simp only [bind_eq_ok, orRaise_eq_ok] at h
  obtain ⟨line, ⟨-, -, hfind⟩, hset⟩ := h
  obtain ⟨hline, hproduct, hselection⟩ := findLegacyLine_some hfind
  obtain ⟨l, new, hpk, hw⟩ := wrote_setLine hset
  obtain ⟨hmem, hsame⟩ := hw.write.of_some
  -- the line written is the legacy line found
  obtain rfl : l = line := Table.eq_of_pk_eq hmem (Db.mem_orderLines.mp hline).1 hpk
  exact ⟨l, new, ⟨hw.onDraft, hw.write,
    ⟨hsame.product.trans hproduct, hsame.selection.trans hselection⟩,
    fun hnone => (by cases hnone), congrArg Option.isSome (hsame.selection.trans hselection),
    hw.units, hw.available, hw.limit, hw.frame⟩⟩

/-- Adding a product writes one legacy line. -/
theorem wrote_addProduct {customer : ℕ} {product : Product} {quantity : ℤ} {r : Db × Order}
    (h : addProductToDraftOrder rt db customer product quantity = .ok r) :
    ∃ old new, Wrote rt db (.addProduct customer product quantity) r.2.pk old new r.1 := by
  unfold addProductToDraftOrder requireOrderable at h
  simp only [bind_eq_ok, require_eq_ok, exists_const] at h
  obtain ⟨hpos, -, standard, -, ⟨db₁, o⟩, hdraft, -, -, havailable, h⟩ := h
  obtain ⟨orders, hopened⟩ := getOrCreateDraft_frame hdraft
  have hopened : db₁ = { db with orders := orders } := hopened
  subst hopened
  -- the legacy line is resized, or a new one is inserted
  cases hfind : findLegacyLine { db with orders := orders } o.pk product.pk with
  | some line =>
    simp only [hfind, bind_eq_ok, pure_eq_ok] at h havailable
    obtain ⟨db₂, hset, rfl⟩ := h
    obtain ⟨hline, hproduct, hselection⟩ := findLegacyLine_some hfind
    obtain ⟨l, hl, hpk, l', hsame, hq, rfl⟩ := setDraftOrderLineQuantity_eq_ok hset
    obtain ⟨hmem, horder⟩ := Db.mem_orderLines.mp hl
    obtain rfl : l = line := Table.eq_of_pk_eq hmem (Db.mem_orderLines.mp hline).1 hpk
    have hselection' := hsame.selection.trans hselection
    refine ⟨some l, l', ⟨_, hdraft, rfl⟩, LineWrite.resized hmem horder hsame,
      ⟨hsame.product.trans hproduct, hselection'⟩, fun hnone => (by cases hnone),
      congrArg Option.isSome hselection', ?_, ?_, fun hlimits => (by cases hlimits), _, _, rfl⟩
    · rw [hq]
      have hold := lineQuantity_nonneg (some l).toList
      exact Int.toNat_of_nonneg (by omega)
    · rw [requireAvailable_legacy hselection', hsame.product, hproduct]
      exact havailable
  | none =>
    simp only [hfind, bind_eq_ok, pure_eq_ok, Option.toList_none, lineQuantity_nil, zero_add]
      at h havailable
    obtain ⟨db₂, hadd, rfl⟩ := h
    obtain ⟨-, o', -, hpk, -, -, x, hx, rfl⟩ := addDraftOrderLine_eq_ok hadd
    have hselection : (x.row.make db.lines.next).businessOfferSelection = none := rfl
    have hproduct : (x.row.make db.lines.next).productId = product.pk := hx.product
    refine ⟨none, _, ⟨_, hdraft, rfl⟩, LineWrite.inserted x.row (hx.order.trans hpk),
      ⟨hproduct, hselection⟩, fun _ => findLegacyLine_none hfind, rfl, ?_, ?_,
      fun hlimits => (by cases hlimits), _, _, rfl⟩
    · rw [LineMutation.requested, Option.toList_none, lineQuantity_nil, zero_add]
      show (x.quantityInUnits : ℤ) = quantity
      rw [hx.quantity]
      exact Int.toNat_of_nonneg (le_of_lt hpos)
    · rw [LineMutation.requested, Option.toList_none, lineQuantity_nil, zero_add,
        requireAvailable_legacy hselection, hproduct]
      exact havailable

/-- **One call.** -/
theorem LineMutation.wrote {m : LineMutation} (h : m.run rt db = .ok db') :
    ∃ k old new, Wrote rt db m k old new db' := by
  -- each of the four calls by its own lemma
  cases m with
  | addCatalogOffer customer product commercialPriceId quantity =>
    obtain ⟨r, hr, rfl⟩ := map_eq_ok.mp h
    exact ⟨_, wrote_addCatalogOffer hr⟩
  | addProduct customer product quantity =>
    obtain ⟨r, hr, rfl⟩ := map_eq_ok.mp h
    exact ⟨_, wrote_addProduct hr⟩
  | setLine orderPk orderLineId quantity =>
    obtain ⟨l, new, -, hw⟩ := wrote_setLine h
    exact ⟨_, some l, new, hw⟩
  | setProduct orderPk productId quantity =>
    obtain ⟨l, new, hw⟩ := wrote_setProduct h
    exact ⟨_, some l, new, hw⟩

/-! ### Removals -/

/-- Deleting lines adds no units. -/
theorem productUnits_deleteLines (pks : List ℕ) (k p : ℕ) :
    (db.deleteLines pks).productUnits k p ≤ db.productUnits k p := by
  rw [productUnits_eq, productUnits_eq, Nat.cast_le]
  refine (Table.total_delete _ _ _).le.trans (Table.total_mono (fun l _ => ?_))
  by_cases hl : pks.contains l.pk = true
  · rw [if_pos hl]
    exact Nat.zero_le _
  · rw [if_neg hl]

/-- Removing a product deletes its legacy line. -/
theorem removeProduct_eq_ok {k productId : ℕ}
    (h : removeProductFromDraftOrder db k productId = .ok db') :
    ∃ lineId, db' = db.deleteLines [lineId] := by
  unfold removeProductFromDraftOrder at h
  obtain ⟨line, -, hremove⟩ := bind_eq_ok.mp h
  exact ⟨line.pk, removeDraftLine_eq_ok hremove⟩

end

/-- One call that changes the lines of a draft. -/
inductive DraftMutation where
  | line (m : LineMutation)
  | removeLine (orderPk orderLineId : ℕ)
  | removeProduct (orderPk productId : ℕ)

def DraftMutation.run (rt : Runtime) (db : Db) : DraftMutation → Result Db
  | .line m => m.run rt db
  | .removeLine orderPk orderLineId => removeDraftLine db orderPk orderLineId
  | .removeProduct orderPk productId => removeProductFromDraftOrder db orderPk productId

end SwedeSweets
