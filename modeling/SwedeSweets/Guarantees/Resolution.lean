import SwedeSweets.Business.Resolution
import SwedeSweets.Guarantees.RetailCatalog

namespace SwedeSweets

open Relational Fallible

/-!
# Line resolution

`resolveBusinessOfferLines` merges the lines that staff enter, `resolveBusinessOrderLines` those of a
customer.  `LineResolution` collects what holds of them in every catalog:

* `Rejected` — the lines that make a resolution fail;
* `SameResolution` — inputs that resolve alike: permuted ones, and lines that were split;
* `Corresponds` — the two ways to order a product through its standard offer.

`line_resolution_merges` — lines are merged correctly.
-/

/-! ### What fails -/

/-- Resolve lines as they are entered. -/
def resolveRawOfferLines (db : Db) (lines : List RawOfferLine) : Result (List ResolvedOrderLine) := do
  resolveBusinessOfferLines db (← lines.mapM RawOfferLine.toInput)

/-- A line that no resolution accepts, and why. -/
inductive Rejected (db : Db) (line : RawOfferLine) : Prop where
  | missing (h : ∀ o ∈ db.commercialPrices, o.pk ≠ line.commercialOfferId)
  | channel {o : CommercialPrice} (ho : o ∈ db.commercialPrices)
      (hpk : o.pk = line.commercialOfferId) (h : o.channel ≠ .business)
  | disabled {o : CommercialPrice} (ho : o ∈ db.commercialPrices)
      (hpk : o.pk = line.commercialOfferId) (h : o.enabled = false)
  | inactive {o : CommercialPrice} (ho : o ∈ db.commercialPrices)
      (hpk : o.pk = line.commercialOfferId)
      (h : ∀ p ∈ db.products, p.pk = o.productId → p.active = false)
  | unpriced {o : CommercialPrice} (ho : o ∈ db.commercialPrices)
      (hpk : o.pk = line.commercialOfferId) (hbatch : o.batchId ≠ none)
      (h : o.findAmount .eur = none)
  | unit (h : ∀ unit, normalizeOrderUnit line.unit ≠ .ok unit)
  | quantity {unit : OrderUnit} (hunit : normalizeOrderUnit line.unit = .ok unit)
      (h : ¬ unit.Admits line.quantity)

variable {db : Db}

/-- A raw line is read when its unit is known. -/
theorem toInput_eq_ok {line : RawOfferLine} {input : BusinessOfferLineInput} :
    line.toInput = .ok input ↔ normalizeOrderUnit line.unit = .ok input.unit
      ∧ input.commercialOfferId = line.commercialOfferId ∧ input.quantity = line.quantity := by
  unfold RawOfferLine.toInput
  simp only [bind_eq_ok, pure_eq_ok]
  constructor
  · rintro ⟨unit, hunit, rfl⟩
    exact ⟨hunit, rfl, rfl⟩
  · rintro ⟨hunit, hoffer, hquantity⟩
    refine ⟨_, hunit, ?_⟩
    rw [← hoffer, ← hquantity]

/-- A line resolves iff nothing rejects it. -/
theorem resolvable_iff {line : RawOfferLine} :
    (∃ input o p, line.toInput = .ok input ∧ Resolvable db input o p) ↔ ¬ Rejected db line := by
  -- Each way of being rejected contradicts one thing a resolvable line has.
  constructor
  · rintro ⟨input, o, p, hinput, hp⟩ hrejected
    obtain ⟨hunit, hoffer, hquantity⟩ := toInput_eq_ok.mp hinput
    have hpk := hp.offer.trans hoffer
    have hsame : ∀ {o' : CommercialPrice}, o' ∈ db.commercialPrices →
        o'.pk = line.commercialOfferId → o' = o :=
      fun ho' hpk' => Table.eq_of_pk_eq (t := db.commercialPrices) ho' hp.known
        (hpk'.trans hpk.symm)
    cases hrejected with
    | missing h => exact h o hp.known hpk
    | channel ho' hpk' h => exact h (hsame ho' hpk' ▸ hp.business)
    | disabled ho' hpk' h =>
      rw [hsame ho' hpk', hp.available.2] at h
      cases h
    | inactive ho' hpk' h =>
      have hactive := h p hp.product.1 (hsame ho' hpk' ▸ hp.product.2)
      rw [hp.available.1] at hactive
      cases hactive
    | unpriced ho' hpk' hbatch h =>
      rw [hsame ho' hpk'] at hbatch h
      exact hp.priced hbatch h
    | unit h => exact h _ hunit
    | quantity hunit' h =>
      rw [hunit, Except.ok.injEq] at hunit'
      exact h (hunit' ▸ hquantity ▸ hp.quantity)
  · intro h
    -- Not rejected: the offer, the product and the unit are found one after another.
    obtain ⟨o, ho, hpk⟩ : ∃ o ∈ db.commercialPrices, o.pk = line.commercialOfferId := by
      by_contra hno
      exact h (.missing (fun o ho hpk => hno ⟨o, ho, hpk⟩))
    obtain ⟨p, hp, hproduct, hactive⟩ : ∃ p ∈ db.products, p.pk = o.productId ∧ p.active = true := by
      by_contra hno
      exact h (.inactive ho hpk (fun p hp hproduct =>
        Bool.eq_false_of_not_eq_true (fun hactive => hno ⟨p, hp, hproduct, hactive⟩)))
    obtain ⟨unit, hunit⟩ : ∃ unit, normalizeOrderUnit line.unit = .ok unit := by
      by_contra hno
      exact h (.unit (fun unit hunit => hno ⟨unit, hunit⟩))
    refine ⟨⟨line.commercialOfferId, line.quantity, unit⟩, o, p, toInput_eq_ok.mpr ⟨hunit, rfl, rfl⟩,
      ⟨ho, ⟨hp, hproduct⟩, ?_, ⟨hactive, ?_⟩, fun hbatch hnone => h (.unpriced ho hpk hbatch hnone)⟩,
      hpk, ?_⟩
    · by_contra hchannel
      exact h (.channel ho hpk hchannel)
    · by_contra henabled
      exact h (.disabled ho hpk (Bool.eq_false_of_not_eq_true henabled))
    · by_contra hquantity
      exact h (.quantity hunit hquantity)

/-- Raw lines resolve when none of them is rejected. -/
theorem resolveRaw_ok_iff (hweights : ∀ p ∈ db.products, 0 < p.weightPerUnit)
    {lines : List RawOfferLine} : (∃ resolved, resolveRawOfferLines db lines = .ok resolved) ↔
      ∀ line ∈ lines, ¬ Rejected db line := by
  unfold resolveRawOfferLines
  simp only [bind_eq_ok]
  -- Units are read first, then the lines are resolved together.
  constructor
  · rintro ⟨resolved, inputs, hinputs, hresolved⟩ line hline
    obtain ⟨input, hinput, hmem⟩ : ∃ input, line.toInput = .ok input ∧ input ∈ inputs := by
      obtain ⟨input, hinput⟩ := returns_of_mapM hinputs line hline
      exact ⟨input, hinput, (mem_mapM hinputs).mpr ⟨line, hline, hinput⟩⟩
    obtain ⟨o, p, hp⟩ := (merged_of_resolve hresolved).1 input hmem
    exact resolvable_iff.mp ⟨input, o, p, hinput, hp⟩
  · intro h
    obtain ⟨inputs, hinputs⟩ : ∃ inputs, lines.mapM RawOfferLine.toInput = .ok inputs := by
      refine mapM_ok (fun line hline => ?_)
      obtain ⟨input, _, _, hinput, -⟩ := resolvable_iff.mpr (h line hline)
      exact ⟨input, hinput⟩
    have hresolvable : ∀ input ∈ inputs, ∃ o p, Resolvable db input o p := by
      intro input hin
      obtain ⟨line, hline, hinput⟩ := exists_of_mem_mapM hinputs hin
      obtain ⟨input', o, p, hinput', hp⟩ := resolvable_iff.mpr (h line hline)
      rw [hinput, Except.ok.injEq] at hinput'
      exact ⟨o, p, hinput' ▸ hp⟩
    obtain ⟨resolved, hresolved⟩ := resolve_of_resolvable hweights hresolvable
    exact ⟨resolved, inputs, hinputs, hresolved⟩

/-! ### Inputs that resolve alike -/

/-- Both fail, or both give the same lines. -/
def SameResolution (db : Db) (inputs inputs' : List BusinessOfferLineInput) : Prop :=
  ((∃ resolved, resolveBusinessOfferLines db inputs = .ok resolved)
      ↔ ∃ resolved, resolveBusinessOfferLines db inputs' = .ok resolved)
    ∧ ∀ resolved resolved', resolveBusinessOfferLines db inputs = .ok resolved →
      resolveBusinessOfferLines db inputs' = .ok resolved' → resolved.Perm resolved'

/-- Lines resolve when each of them does. -/
theorem resolve_ok_iff (hweights : ∀ p ∈ db.products, 0 < p.weightPerUnit)
    {inputs : List BusinessOfferLineInput} :
    (∃ resolved, resolveBusinessOfferLines db inputs = .ok resolved) ↔
      ∀ line ∈ inputs, ∃ o p, Resolvable db line o p := by
  constructor
  · rintro ⟨resolved, hresolved⟩
    exact (merged_of_resolve hresolved).1
  · exact resolve_of_resolvable hweights

/-- Inputs whose lines are accepted alike, and that order the same of every offer. -/
theorem sameResolution_of {inputs inputs' : List BusinessOfferLineInput}
    (hweights : ∀ p ∈ db.products, 0 < p.weightPerUnit)
    (hlines : (∀ line ∈ inputs, ∃ o p, Resolvable db line o p) ↔
      ∀ line ∈ inputs', ∃ o p, Resolvable db line o p)
    (hoffers : ∀ k, k ∈ inputs.map BusinessOfferLineInput.commercialOfferId ↔
      k ∈ inputs'.map BusinessOfferLineInput.commercialOfferId)
    (hunits : ∀ p k, unitsOrdered inputs p k = unitsOrdered inputs' p k) :
    SameResolution db inputs inputs' := by
  refine ⟨?_, fun resolved resolved' h h' => ?_⟩
  · rw [resolve_ok_iff hweights, resolve_ok_iff hweights, hlines]
  · exact (merged_of_resolve h).2.perm (merged_of_resolve h').2 hoffers hunits

/-- The order of the lines does not matter. -/
theorem sameResolution_of_perm {inputs inputs' : List BusinessOfferLineInput}
    (hweights : ∀ p ∈ db.products, 0 < p.weightPerUnit) (h : inputs.Perm inputs') :
    SameResolution db inputs inputs' :=
  sameResolution_of hweights
    ⟨fun hlines line hline => hlines line (h.mem_iff.mpr hline),
      fun hlines line hline => hlines line (h.mem_iff.mp hline)⟩
    (fun _ => (h.map _).mem_iff) (fun _ _ => (h.map _).sum_eq)

/-- A line of so many stock units. -/
def stockLine (offerPk units : ℕ) : BusinessOfferLineInput := ⟨offerPk, units, .stock⟩

/-- Stock units admit every positive number. -/
theorem admits_stock {n : ℕ} : OrderUnit.stock.Admits n ↔ 0 < n := by
  unfold OrderUnit.Admits
  simp

/-- Units ordered add up over the lines. -/
theorem unitsOrdered_append (is js : List BusinessOfferLineInput) (p : Product) (k : ℕ) :
    unitsOrdered (is ++ js) p k = unitsOrdered is p k + unitsOrdered js p k := by
  simp [unitsOrdered]

/-- A quantity split over lines is ordered as a whole. -/
theorem unitsOrdered_stockLines (p : Product) (offerPk k : ℕ) (parts : List ℕ) :
    unitsOrdered (parts.map (stockLine offerPk)) p k = unitsOrdered [stockLine offerPk parts.sum] p k := by
  induction parts with
  | nil => simp [unitsOrdered, stockLine, Product.stockUnits]
  | cons n parts ih =>
    have hcons : (n :: parts).map (stockLine offerPk)
        = [stockLine offerPk n] ++ parts.map (stockLine offerPk) := rfl
    rw [hcons, unitsOrdered_append, ih]
    by_cases hk : offerPk = k <;> simp [unitsOrdered, stockLine, Product.stockUnits, hk]

/-- A stock-unit line may be split into several. -/
theorem sameResolution_of_split (hweights : ∀ p ∈ db.products, 0 < p.weightPerUnit)
    (before after : List BusinessOfferLineInput) (offerPk : ℕ) {parts : List ℕ} (hne : parts ≠ [])
    (hpos : ∀ n ∈ parts, 0 < n) :
    SameResolution db (before ++ [stockLine offerPk parts.sum] ++ after)
      (before ++ parts.map (stockLine offerPk) ++ after) := by
  obtain ⟨n, parts, rfl⟩ := List.exists_cons_of_ne_nil hne
  have hsum : 0 < (n :: parts).sum := by
    have hn := hpos n (List.mem_cons_self ..)
    rw [List.sum_cons]
    omega
  -- the parts are lines for the same offer
  have hline : ∀ {m m' : ℕ}, 0 < m → 0 < m' →
      (∃ o p, Resolvable db (stockLine offerPk m) o p) →
        ∃ o p, Resolvable db (stockLine offerPk m') o p := by
    rintro m m' - hm' ⟨o, p, h⟩
    exact ⟨o, p, h.toSelectable, h.offer, admits_stock.mpr hm'⟩
  have hparts : ∀ k, k ∈ ((n :: parts).map (stockLine offerPk)).map
      BusinessOfferLineInput.commercialOfferId ↔ k = offerPk := by
    intro k
    rw [List.map_map, List.mem_map]
    constructor
    · rintro ⟨m, -, rfl⟩
      rfl
    · rintro rfl
      exact ⟨n, List.mem_cons_self .., rfl⟩
  refine sameResolution_of hweights ?_ (fun k => ?_) (fun p k => ?_)
  · simp only [List.forall_mem_append, List.forall_mem_map, List.forall_mem_singleton]
    refine and_congr_left (fun _ => and_congr_right (fun _ => ⟨fun h m hm => ?_, fun h => ?_⟩))
    · exact hline hsum (hpos m hm) h
    · exact hline (hpos n (List.mem_cons_self ..)) hsum (h n (List.mem_cons_self ..))
  · rw [List.map_append, List.map_append, List.map_append, List.map_append, List.mem_append,
      List.mem_append, List.mem_append, List.mem_append, hparts k]
    simp [stockLine]
  · simp only [unitsOrdered_append, unitsOrdered_stockLines]

/-! ### Standard offers -/

/-- A line for the standard offer of an active product, and a line for the product. -/
structure Corresponds (db : Db) (line : BusinessOfferLineInput) (line' : OrderLineInput) : Prop where
  quantity : line'.quantity = line.quantity
  unit : line'.unit = line.unit
  standard : ∃ o ∈ db.commercialPrices, o.pk = line.commercialOfferId ∧ o.channel = .business
    ∧ o.batchId = none ∧ ∃ p ∈ db.products, p.pk = o.productId ∧ p.active = true
      ∧ line'.resolveProductId = .ok p.pk

/-- The standard offer is the product-wide BUSINESS offer. -/
theorem standardBusinessOffer_iff (h : OfferConstraints db) {k : ℕ} {o : CommercialPrice} :
    standardBusinessOffer db k = some o ↔
      o ∈ db.commercialPrices ∧ o.productId = k ∧ o.channel = .business ∧ o.batchId = none := by
  unfold standardBusinessOffer
  -- The first such offer is the only one.
  constructor
  · intro hfind
    have hfound := List.find?_some hfind
    simp only [Bool.and_eq_true, decide_eq_true_eq, Option.isNone_iff_eq_none] at hfound
    exact ⟨List.mem_of_find?_eq_some hfind, hfound.1.1, hfound.1.2, hfound.2⟩
  · rintro ⟨ho, hproduct, hchannel, hbatch⟩
    cases hfind : db.commercialPrices.rows.find?
        (fun o => o.productId = k && o.channel = .business && o.batchId.isNone) with
    | none =>
      have hno := List.find?_eq_none.mp hfind o ho
      simp [hproduct, hchannel, hbatch] at hno
    | some o' =>
      have hfound := List.find?_some hfind
      simp only [Bool.and_eq_true, decide_eq_true_eq, Option.isNone_iff_eq_none] at hfound
      exact congrArg some (h.uniqueProductPrice o' (List.mem_of_find?_eq_some hfind) o ho hfound.2
        hbatch (hfound.1.1.trans hproduct.symm) (hfound.1.2.trans hchannel.symm))

section

variable {line : BusinessOfferLineInput} {line' : OrderLineInput} {o : CommercialPrice} {p : Product}

/-- Corresponding lines name a standard offer and its product, both or neither. -/
theorem Corresponds.names_iff (h : Corresponds db line line') (hconstraints : OfferConstraints db)
    (ho : o ∈ db.commercialPrices) (hchannel : o.channel = .business) (hbatch : o.batchId = none)
    (hpk : p.pk = o.productId) :
    line.commercialOfferId = o.pk ↔ line'.resolveProductId = .ok p.pk := by
  obtain ⟨o', ho', hoffer, hchannel', hbatch', p', -, hpk', -, hnamed⟩ := h.standard
  rw [← hoffer, hnamed, Except.ok.injEq, hpk, hpk']
  constructor
  · intro heq
    rw [Table.eq_of_pk_eq (t := db.commercialPrices) ho' ho heq]
  · intro heq
    rw [hconstraints.uniqueProductPrice o' ho' o ho hbatch' hbatch heq
      (hchannel'.trans hchannel.symm)]

/-- Corresponding lines are accepted alike. -/
theorem Corresponds.resolvable_iff (h : Corresponds db line line')
    (hconstraints : OfferConstraints db) : (∃ o p, Resolvable db line o p) ↔
      ∃ p o, ResolvableProduct db line' p ∧ OrderedProduct db p o := by
  obtain ⟨o', ho', hoffer, hchannel', hbatch', p', hp', hpk', hactive, hnamed⟩ := h.standard
  -- The line's offer is the standard offer of the product named.
  have hstandard : standardBusinessOffer db p'.pk = some o' :=
    (standardBusinessOffer_iff hconstraints).mpr ⟨ho', hpk'.symm, hchannel', hbatch'⟩
  constructor
  · rintro ⟨o, p, hline⟩
    have heq : o = o' := Table.eq_of_pk_eq (t := db.commercialPrices) hline.known ho'
      (hline.offer.trans hoffer.symm)
    exact ⟨p', o', ⟨hnamed, hp', h.unit ▸ h.quantity ▸ hline.quantity⟩, hp', hstandard,
      heq ▸ hline.available.2⟩
  · rintro ⟨p, o, hline, hordered⟩
    have heq : p'.pk = p.pk := Except.ok.inj (hnamed.symm.trans hline.named)
    have hsame := hordered.standard
    rw [← heq, hstandard, Option.some.injEq] at hsame
    have hquantity : line.unit.Admits line.quantity := h.unit ▸ h.quantity ▸ hline.quantity
    exact ⟨o', p', ⟨ho', ⟨hp', hpk'⟩, hchannel', ⟨hactive, hsame ▸ hordered.enabled⟩,
      fun hb => absurd hbatch' hb⟩, hoffer, hquantity⟩

end

/-- Corresponding lines order the same of a standard offer and of its product. -/
theorem units_agree {inputs : List BusinessOfferLineInput} {inputs' : List OrderLineInput}
    (h : List.Forall₂ (Corresponds db) inputs inputs') (hconstraints : OfferConstraints db)
    {o : CommercialPrice} {p : Product} (ho : o ∈ db.commercialPrices)
    (hchannel : o.channel = .business) (hbatch : o.batchId = none) (hpk : p.pk = o.productId) :
    unitsOfProduct inputs' p = unitsOrdered inputs p o.pk := by
  refine congrArg List.sum (map_eq_of_forall₂ h (fun line line' hline => ?_))
  have hnames := hline.names_iff hconstraints ho hchannel hbatch hpk
  by_cases hk : line.commercialOfferId = o.pk
  · rw [if_pos hk, if_pos (hnames.mp hk), hline.quantity, hline.unit]
  · rw [if_neg hk, if_neg (fun hno => hk (hnames.mpr hno))]

/-- What a line sells. -/
def ResolvedOrderLine.sale (r : ResolvedOrderLine) : CommercialPrice × ℤ :=
  (r.commercialOffer, r.quantityInUnits)

/-- The two resolvers sell the same. -/
theorem sales_agree {inputs : List BusinessOfferLineInput} {inputs' : List OrderLineInput}
    {resolved resolved' : List ResolvedOrderLine}
    (h : List.Forall₂ (Corresponds db) inputs inputs') (hconstraints : OfferConstraints db)
    (hmerged : Merged db inputs resolved) (hproducts : MergedProducts db inputs' resolved') :
    (resolved.map ResolvedOrderLine.sale).Perm (resolved'.map ResolvedOrderLine.sale) := by
  have hoffer' : ∀ r' ∈ resolved', r'.commercialOffer ∈ db.commercialPrices
      ∧ r'.commercialOffer.productId = r'.product.pk ∧ r'.commercialOffer.channel = .business
      ∧ r'.commercialOffer.batchId = none :=
    fun r' hr' => (standardBusinessOffer_iff hconstraints).mp (hproducts.ordered r' hr').standard
  -- lines for the same offer are the same sale
  have hsale : ∀ r ∈ resolved, ∀ r' ∈ resolved', r.commercialOffer = r'.commercialOffer →
      r.sale = r'.sale := by
    intro r hr r' hr' hoffer
    obtain ⟨ho, hproduct, hchannel, hbatch⟩ := hoffer' r' hr'
    have hselectable := hmerged.selectable r hr
    have hsame : r.product = r'.product := by
      refine Table.eq_of_pk_eq (t := db.products) hselectable.product.1
        (hproducts.ordered r' hr').product ?_
      rw [pk_product, pk_product, hselectable.product.2, hoffer, hproduct]
    refine Prod.ext hoffer ?_
    show r.quantityInUnits = r'.quantityInUnits
    rw [hmerged.quantity r hr, hproducts.quantity r' hr',
      units_agree h hconstraints ho hchannel hbatch hproduct.symm, hsame, hoffer]
  have hforth : ∀ r ∈ resolved, ∃ r' ∈ resolved', r.commercialOffer = r'.commercialOffer := by
    intro r hr
    obtain ⟨line, hline, hpk⟩ := List.mem_map.mp ((hmerged.offers _).mp (List.mem_map_of_mem hr))
    obtain ⟨line', hline', hcorr⟩ := forall₂_left h line hline
    obtain ⟨o, ho, hoffer, hchannel, hbatch, p, hp, hproduct, -, hnamed⟩ := hcorr.standard
    have heq : r.commercialOffer = o := Table.eq_of_pk_eq (t := db.commercialPrices)
      (hmerged.selectable r hr).known ho (hpk.symm.trans hoffer.symm)
    obtain ⟨r', hr', hpk'⟩ := List.mem_map.mp ((hproducts.products _).mpr ⟨line', hline', hnamed⟩)
    obtain ⟨ho', hproduct', hchannel', hbatch'⟩ := hoffer' r' hr'
    exact ⟨r', hr', heq.trans (hconstraints.uniqueProductPrice o ho _ ho' hbatch hbatch'
      (by rw [hproduct', hpk', hproduct]) (hchannel.trans hchannel'.symm))⟩
  have hback : ∀ r' ∈ resolved', ∃ r ∈ resolved, r.commercialOffer = r'.commercialOffer := by
    intro r' hr'
    obtain ⟨line', hline', hnamed'⟩ := (hproducts.products _).mp (List.mem_map_of_mem hr')
    obtain ⟨line, hline, hcorr⟩ := forall₂_right h line' hline'
    obtain ⟨o, ho, hoffer, hchannel, hbatch, p, hp, hproduct, -, hnamed⟩ := hcorr.standard
    obtain ⟨ho', hproduct', hchannel', hbatch'⟩ := hoffer' r' hr'
    have hpk : p.pk = r'.product.pk := Except.ok.inj (hnamed.symm.trans hnamed')
    have heq : o = r'.commercialOffer := hconstraints.uniqueProductPrice o ho _ ho' hbatch hbatch'
      (by rw [hproduct', ← hpk, hproduct]) (hchannel.trans hchannel'.symm)
    obtain ⟨r, hr, hrpk⟩ := List.mem_map.mp
      ((hmerged.offers _).mpr (List.mem_map.mpr ⟨line, hline, rfl⟩))
    exact ⟨r, hr, (Table.eq_of_pk_eq (t := db.commercialPrices) (hmerged.selectable r hr).known ho
      (hrpk.trans hoffer.symm)).trans heq⟩
  have hnodup : (resolved.map ResolvedOrderLine.sale).Nodup := by
    refine List.Nodup.of_map (fun s => s.1.pk) ?_
    rw [List.map_map]
    exact hmerged.distinct
  have hnodup' : (resolved'.map ResolvedOrderLine.sale).Nodup := by
    have hkeys : (resolved'.map ResolvedOrderLine.sale).map (fun s => s.1.productId)
        = resolved'.map (fun r' => r'.product.pk) := by
      rw [List.map_map]
      exact List.map_congr_left (fun r' hr' => (hoffer' r' hr').2.1)
    exact List.Nodup.of_map _ (hkeys ▸ hproducts.distinct)
  refine (List.perm_ext_iff_of_nodup hnodup hnodup').mpr (fun s => ?_)
  rw [List.mem_map, List.mem_map]
  constructor
  · rintro ⟨r, hr, rfl⟩
    obtain ⟨r', hr', hoffer⟩ := hforth r hr
    exact ⟨r', hr', (hsale r hr r' hr' hoffer).symm⟩
  · rintro ⟨r', hr', rfl⟩
    obtain ⟨r, hr, hoffer⟩ := hback r' hr'
    exact ⟨r, hr, hsale r hr r' hr' hoffer⟩

/-! ### The guarantee -/

/-- How lines are resolved against a catalog. -/
structure LineResolution (db : Db) : Prop where
  fails : ∀ lines, (∃ e, resolveRawOfferLines db lines = .error e) ↔
    ∃ line ∈ lines, Rejected db line
  merges : ∀ inputs resolved, resolveBusinessOfferLines db inputs = .ok resolved →
    Merged db inputs resolved
  permuted : ∀ inputs inputs' : List BusinessOfferLineInput, inputs.Perm inputs' →
    SameResolution db inputs inputs'
  split : ∀ before after offerPk parts, parts ≠ [] → (∀ n ∈ parts, 0 < n) →
    SameResolution db (before ++ [stockLine offerPk parts.sum] ++ after)
      (before ++ parts.map (stockLine offerPk) ++ after)
  agrees : ∀ inputs inputs', List.Forall₂ (Corresponds db) inputs inputs' →
    ((∃ resolved, resolveBusinessOfferLines db inputs = .ok resolved)
        ↔ ∃ resolved', resolveBusinessOrderLines db inputs' = .ok resolved')
      ∧ ∀ resolved resolved', resolveBusinessOfferLines db inputs = .ok resolved →
        resolveBusinessOrderLines db inputs' = .ok resolved' →
        (resolved.map ResolvedOrderLine.sale).Perm (resolved'.map ResolvedOrderLine.sale)

/-- **Line resolution merges correctly.** -/
theorem line_resolution_merges (hweights : ∀ p ∈ db.products, 0 < p.weightPerUnit)
    (hconstraints : OfferConstraints db) : LineResolution db where
  fails := by
    intro lines
    -- A resolution fails exactly when it does not succeed.
    have hok : (∃ resolved, resolveRawOfferLines db lines = .ok resolved) ↔
        ∀ line ∈ lines, ¬ Rejected db line := resolveRaw_ok_iff hweights
    constructor
    · rintro ⟨e, he⟩
      by_contra hno
      push Not at hno
      obtain ⟨resolved, hresolved⟩ := hok.mpr hno
      rw [he] at hresolved
      cases hresolved
    · rintro ⟨line, hline, hrejected⟩
      refine exists_error (fun resolved hresolved => ?_)
      exact hok.mp ⟨resolved, hresolved⟩ line hline hrejected
  merges := fun _ _ h => (merged_of_resolve h).2
  permuted := fun _ _ h => sameResolution_of_perm hweights h
  split := fun before after offerPk _ hne hpos =>
    sameResolution_of_split hweights before after offerPk hne hpos
  agrees := by
    intro inputs inputs' h
    refine ⟨⟨?_, ?_⟩, fun resolved resolved' hresolved hresolved' => ?_⟩
    · rintro ⟨resolved, hresolved⟩
      refine resolve_of_resolvableProducts hweights (fun line' hline' => ?_)
      obtain ⟨line, hline, hcorr⟩ := forall₂_right h line' hline'
      exact (hcorr.resolvable_iff hconstraints).mp ((merged_of_resolve hresolved).1 line hline)
    · rintro ⟨resolved', hresolved'⟩
      refine resolve_of_resolvable hweights (fun line hline => ?_)
      obtain ⟨line', hline', hcorr⟩ := forall₂_left h line hline
      exact (hcorr.resolvable_iff hconstraints).mpr
        ((mergedProducts_of_resolve hresolved').1 line' hline')
    · exact sales_agree h hconstraints (merged_of_resolve hresolved).2
        (mergedProducts_of_resolve hresolved').2

/-- The catalog of the shop. -/
theorem line_resolution_merges_shop : LineResolution (State.init.after Shop.opening).db := by
  have hweights : ∀ p ∈ (State.init.after Shop.opening).db.products.rows, 0 < p.weightPerUnit := by
    decide +kernel
  exact line_resolution_merges hweights Shop.opening_offers

end SwedeSweets
