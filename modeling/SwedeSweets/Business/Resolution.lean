import SwedeSweets.Guarantees.Units
import SwedeSweets.Pricing.Pools
import SwedeSweets.Business.Services

namespace SwedeSweets

open Relational Fallible

/-!
# Resolving order lines

What the two resolvers accept, and what they return:

* `Selectable` — the checks on one selected offer (`validateOfferSelection_eq_ok`);
* `Merged` — the lines of a resolution by offer (`resolveBusinessOfferLines_eq_ok`);
* `MergedProducts` — the lines of a resolution by product (`resolveBusinessOrderLines_eq_ok`).

Both loops convert a line, then add it under its key; what they have added up is
`Dict.mem_entries_accumulate`.
-/

variable {db : Db}

/-! ### By offer -/

/-- An offer that staff may select, with its product. -/
structure Selectable (db : Db) (o : CommercialPrice) (p : Product) : Prop where
  known : o ∈ db.commercialPrices
  product : p ∈ db.products ∧ p.pk = o.productId
  business : o.channel = .business
  available : p.active = true ∧ o.enabled = true
  priced : o.batchId ≠ none → o.findAmount .eur ≠ none

/-- The price snapshot that an offer gives. -/
def CommercialPrice.eurPrice (o : CommercialPrice) : Option Cents :=
  (o.findAmount .eur).map PriceAmount.price

/-- A selection is valid when its offer can be selected. -/
theorem validateOfferSelection_eq_ok {o : CommercialPrice} (ho : o ∈ db.commercialPrices)
    {s : CommercialPrice × Product × Option Cents} :
    validateOfferSelection db o = .ok s ↔ ∃ p, Selectable db o p ∧ s = (o, p, o.eurPrice) := by
  unfold validateOfferSelection Db.getProduct
  simp only [bind_eq_ok, orRaise_eq_ok, require_eq_ok, exists_const, pure_eq_ok,
    Table.get?_eq_some, pk_product]
  refine exists_congr (fun p => ?_)
  constructor
  · rintro ⟨hproduct, hbusiness, havailable, hpriced, rfl⟩
    exact ⟨⟨ho, hproduct, hbusiness, havailable, fun hbatch hnone => hpriced ⟨hbatch, hnone⟩⟩, rfl⟩
  · rintro ⟨h, rfl⟩
    exact ⟨h.product, h.business, h.available, fun hno => h.priced hno.1 hno.2, rfl⟩

/-- A line that resolves. -/
structure Resolvable (db : Db) (line : BusinessOfferLineInput) (o : CommercialPrice) (p : Product) :
    Prop extends Selectable db o p where
  offer : o.pk = line.commercialOfferId
  quantity : line.unit.Admits line.quantity

/-- Line and offer determine each other's product. -/
theorem Resolvable.unique {line : BusinessOfferLineInput} {o o' : CommercialPrice} {p p' : Product}
    (h : Resolvable db line o p) (h' : Selectable db o' p') (hpk : o'.pk = line.commercialOfferId) :
    o' = o ∧ p' = p := by
  have ho : o' = o := Table.eq_of_pk_eq (t := db.commercialPrices) h'.known h.known
    (hpk.trans h.offer.symm)
  refine ⟨ho, Table.eq_of_pk_eq (t := db.products) h'.product.1 h.product.1 ?_⟩
  rw [pk_product, pk_product, h'.product.2, h.product.2, ho]

/-- The units ordered of an offer, when it is an offer of the product. -/
def unitsOrdered (inputs : List BusinessOfferLineInput) (p : Product) (offerPk : ℕ) : ℤ :=
  (inputs.map (fun line =>
    if line.commercialOfferId = offerPk then p.stockUnits line.quantity line.unit else 0)).sum

/-- One line for each offer of the input, with the units ordered of it. -/
structure Merged (db : Db) (inputs : List BusinessOfferLineInput) (resolved : List ResolvedOrderLine) :
    Prop where
  distinct : (resolved.map (fun r => r.commercialOffer.pk)).Nodup
  offers : ∀ k, k ∈ resolved.map (fun r => r.commercialOffer.pk) ↔
    k ∈ inputs.map BusinessOfferLineInput.commercialOfferId
  selectable : ∀ r ∈ resolved, Selectable db r.commercialOffer r.product
  quantity : ∀ r ∈ resolved,
    r.quantityInUnits = unitsOrdered inputs r.product r.commercialOffer.pk
  price : ∀ r ∈ resolved, r.unitPriceSnapshot = r.commercialOffer.eurPrice

/-- The lines are determined by what is ordered of each offer. -/
theorem Merged.perm {inputs inputs' : List BusinessOfferLineInput}
    {resolved resolved' : List ResolvedOrderLine} (h : Merged db inputs resolved)
    (h' : Merged db inputs' resolved')
    (hoffers : ∀ k, k ∈ inputs.map BusinessOfferLineInput.commercialOfferId ↔
      k ∈ inputs'.map BusinessOfferLineInput.commercialOfferId)
    (hunits : ∀ p k, unitsOrdered inputs p k = unitsOrdered inputs' p k) :
    resolved.Perm resolved' := by
  -- each line of the one list is in the other, so the two are permutations
  have hsub : ∀ {xs ys : List ResolvedOrderLine} {is js : List BusinessOfferLineInput},
      Merged db is xs → Merged db js ys →
      (∀ k, k ∈ is.map BusinessOfferLineInput.commercialOfferId →
        k ∈ js.map BusinessOfferLineInput.commercialOfferId) →
      (∀ p k, unitsOrdered is p k = unitsOrdered js p k) → ∀ r ∈ xs, r ∈ ys := by
    intro xs ys is js hx hy hsub hunits r hr
    have hkey := (hy.offers _).mpr (hsub _ ((hx.offers _).mp (List.mem_map_of_mem hr)))
    obtain ⟨s, hs, hpk⟩ := List.mem_map.mp hkey
    have hxr := hx.selectable r hr
    have hys := hy.selectable s hs
    have hoffer : s.commercialOffer = r.commercialOffer :=
      Table.eq_of_pk_eq (t := db.commercialPrices) hys.known hxr.known hpk
    have hproduct : s.product = r.product := by
      refine Table.eq_of_pk_eq (t := db.products) hys.product.1 hxr.product.1 ?_
      rw [pk_product, pk_product, hys.product.2, hxr.product.2, hoffer]
    have hquantity : s.quantityInUnits = r.quantityInUnits := by
      rw [hy.quantity s hs, hx.quantity r hr, hunits, hproduct, hoffer]
    have hprice : s.unitPriceSnapshot = r.unitPriceSnapshot := by
      rw [hy.price s hs, hx.price r hr, hoffer]
    -- lines for one offer agree in all they say
    have heq : s = r := by
      cases s
      cases r
      simp only [ResolvedOrderLine.mk.injEq]
      exact ⟨hproduct, hquantity, hoffer, hprice⟩
    exact heq ▸ hs
  refine (List.perm_ext_iff_of_nodup (List.Nodup.of_map _ h.distinct)
    (List.Nodup.of_map _ h'.distinct)).mpr (fun r => ⟨?_, ?_⟩)
  · exact hsub h h' (fun k => (hoffers k).mp) hunits r
  · exact hsub h' h (fun k => (hoffers k).mpr) (fun p k => (hunits p k).symm) r

/-- What one line adds to the quantities. -/
def offerEntry (selections : List (CommercialPrice × Product × Option Cents))
    (line : BusinessOfferLineInput) : Result (ℕ × ℤ) := do
  let selection ← orRaise (selections.find? (fun s => s.1.pk = line.commercialOfferId)) .keyError
  let quantityInUnits ← quantityToUnits selection.2.1 line.quantity line.unit
  requirePositiveQuantity quantityInUnits
  return (selection.1.pk, quantityInUnits)

/-- An entry is made for the offer found, with the units asked for. -/
theorem offerEntry_eq_ok {selections : List (CommercialPrice × Product × Option Cents)}
    {line : BusinessOfferLineInput} {e : ℕ × ℤ} :
    offerEntry selections line = .ok e ↔
      ∃ s, selections.find? (fun s => s.1.pk = line.commercialOfferId) = some s
        ∧ line.unit.Admits line.quantity ∧ 0 < s.2.1.stockUnits line.quantity line.unit
        ∧ (s.1.pk, s.2.1.stockUnits line.quantity line.unit) = e := by
  unfold offerEntry requirePositiveQuantity
  simp only [bind_eq_ok, orRaise_eq_ok, require_eq_ok, exists_const, pure_eq_ok,
    quantityToUnits_eq_ok]
  refine exists_congr (fun s => and_congr_right (fun _ => ?_))
  constructor
  · rintro ⟨n, ⟨hadmits, rfl⟩, hpos, he⟩
    exact ⟨hadmits, hpos, he⟩
  · rintro ⟨hadmits, hpos, he⟩
    exact ⟨_, ⟨hadmits, rfl⟩, hpos, he⟩

/-- One round of the loop adds the entry of its line. -/
theorem addOfferEntry_eq_ok (selections : List (CommercialPrice × Product × Option Cents))
    (line : BusinessOfferLineInput) (quantities quantities' : Dict ℕ ℤ) :
    (do
      let selection ← orRaise (selections.find? (fun s => s.1.pk = line.commercialOfferId))
        Error.keyError
      let quantityInUnits ← quantityToUnits selection.2.1 line.quantity line.unit
      requirePositiveQuantity quantityInUnits
      return quantities.add selection.1.pk quantityInUnits) = Except.ok quantities' ↔
      ∃ e, offerEntry selections line = .ok e ∧ quantities.add e.1 e.2 = quantities' := by
  unfold offerEntry
  simp only [bind_eq_ok, orRaise_eq_ok, pure_eq_ok]
  constructor
  · rintro ⟨s, hs, n, hn, u, hu, rfl⟩
    exact ⟨_, ⟨s, hs, n, hn, u, hu, rfl⟩, rfl⟩
  · rintro ⟨_, ⟨s, hs, n, hn, u, hu, rfl⟩, rfl⟩
    exact ⟨s, hs, n, hn, u, hu, rfl⟩

/-- The selections of a resolution, offer by offer. -/
theorem find_selection {offers : List CommercialPrice}
    {selections : List (CommercialPrice × Product × Option Cents)}
    (hknown : ∀ o ∈ offers, o ∈ db.commercialPrices)
    (hselections : offers.mapM (validateOfferSelection db) = .ok selections) {k : ℕ}
    {s : CommercialPrice × Product × Option Cents}
    (hfind : selections.find? (fun s => s.1.pk = k) = some s) :
    Selectable db s.1 s.2.1 ∧ s.1.pk = k ∧ s.2.2 = s.1.eurPrice := by
  obtain ⟨o, ho, hvalid⟩ := exists_of_mem_mapM hselections (List.mem_of_find?_eq_some hfind)
  have hpk : s.1.pk = k := by simpa using List.find?_some hfind
  obtain ⟨p, hselectable, rfl⟩ := (validateOfferSelection_eq_ok (hknown o ho)).mp hvalid
  exact ⟨hselectable, hpk, rfl⟩

/-- **What a resolution returns.** -/
theorem merged_of_resolve {inputs : List BusinessOfferLineInput} {resolved : List ResolvedOrderLine}
    (h : resolveBusinessOfferLines db inputs = .ok resolved) :
    (∀ line ∈ inputs, ∃ o p, Resolvable db line o p) ∧ Merged db inputs resolved := by
  unfold resolveBusinessOfferLines at h
  simp only [bind_eq_ok, require_eq_ok, exists_const] at h
  obtain ⟨-, selections, hselections, quantities, hquantities, hlines⟩ := h
  have hfind := fun k s => find_selection (k := k) (s := s)
    (fun o ho => (Table.mem_select.mp ho).1) hselections
  obtain ⟨es, hes, rfl⟩ := (Dict.foldlM_add_eq_ok
    (fun d line d' => addOfferEntry_eq_ok selections line d d')).mp hquantities
  -- each entry stands for a line that resolves
  have hentries : List.Forall₂ (fun line e => ∃ o p, Resolvable db line o p
      ∧ e = (line.commercialOfferId, p.stockUnits line.quantity line.unit)) inputs es := by
    refine (forall₂_of_mapM hes).imp (fun line e he => ?_)
    obtain ⟨s, hs, hadmits, -, rfl⟩ := offerEntry_eq_ok.mp he
    obtain ⟨hselectable, hpk, -⟩ := hfind _ s hs
    exact ⟨s.1, s.2.1, ⟨hselectable, hpk, hadmits⟩, by rw [hpk]⟩
  have hkeys : es.map Prod.fst = inputs.map BusinessOfferLineInput.commercialOfferId :=
    map_eq_of_forall₂ hentries (fun line e he => by
      obtain ⟨_, _, -, rfl⟩ := he
      rfl)
  have hsum : ∀ {o : CommercialPrice} {p : Product}, Selectable db o p →
      (es.map (fun e => if e.1 = o.pk then e.2 else 0)).sum = unitsOrdered inputs p o.pk := by
    intro o p hop
    refine congrArg List.sum (map_eq_of_forall₂ hentries (fun line e he => ?_))
    obtain ⟨o', p', hline, rfl⟩ := he
    by_cases hk : line.commercialOfferId = o.pk
    · rw [(hline.unique hop hk.symm).2]
    · rw [if_neg hk, if_neg hk]
  have hresolved : List.Forall₂ (fun e r => Selectable db r.commercialOffer r.product
      ∧ r.commercialOffer.pk = e.1 ∧ r.quantityInUnits = e.2
      ∧ r.unitPriceSnapshot = r.commercialOffer.eurPrice) (Dict.accumulate es).entries resolved := by
    refine (forall₂_of_mapM hlines).imp (fun e r hr => ?_)
    simp only [bind_eq_ok, orRaise_eq_ok, pure_eq_ok] at hr
    obtain ⟨s, hs, rfl⟩ := hr
    obtain ⟨hselectable, hpk, hprice⟩ := hfind _ s hs
    exact ⟨hselectable, hpk, rfl, hprice⟩
  have hpks : resolved.map (fun r => r.commercialOffer.pk) = (Dict.accumulate es).keys :=
    map_eq_of_forall₂ hresolved (fun e r hr => hr.2.1)
  refine ⟨fun line hline => ?_, ?_⟩
  · obtain ⟨e, he⟩ := returns_of_mapM hes line hline
    obtain ⟨s, hs, hadmits, -, -⟩ := offerEntry_eq_ok.mp he
    obtain ⟨hselectable, hpk, -⟩ := hfind _ s hs
    exact ⟨s.1, s.2.1, hselectable, hpk, hadmits⟩
  · refine ⟨hpks ▸ (Dict.accumulate es).nodup, fun k => ?_, fun r hr => ?_, fun r hr => ?_,
      fun r hr => ?_⟩
    · rw [hpks, Dict.mem_keys_accumulate, hkeys]
    · obtain ⟨e, -, hselectable, -⟩ := forall₂_right hresolved r hr
      exact hselectable
    · obtain ⟨e, he, hselectable, hpk, hquantity, -⟩ := forall₂_right hresolved r hr
      rw [hquantity, (Dict.mem_entries_accumulate.mp he).2, ← hpk, hsum hselectable]
    · obtain ⟨e, -, -, -, -, hprice⟩ := forall₂_right hresolved r hr
      exact hprice

/-- **What resolves.** Lines resolve when each of them does. -/
theorem resolve_of_resolvable {inputs : List BusinessOfferLineInput}
    (hweights : ∀ p ∈ db.products, 0 < p.weightPerUnit)
    (h : ∀ line ∈ inputs, ∃ o p, Resolvable db line o p) :
    ∃ resolved, resolveBusinessOfferLines db inputs = .ok resolved := by
  unfold resolveBusinessOfferLines
  simp only [bind_eq_ok, require_eq_ok, exists_const]
  set offers := db.commercialPrices.select (fun o =>
    ((inputs.map BusinessOfferLineInput.commercialOfferId).dedup).contains o.pk) with hoffers
  have hmem : ∀ o, o ∈ offers ↔ o ∈ db.commercialPrices
      ∧ o.pk ∈ inputs.map BusinessOfferLineInput.commercialOfferId := by
    intro o
    rw [hoffers, Table.mem_select, List.contains_iff_mem, List.mem_dedup]
  have hselected : ∀ o ∈ offers, ∃ p, Selectable db o p := by
    intro o ho
    obtain ⟨hknown, hline⟩ := (hmem o).mp ho
    obtain ⟨line, hline, hpk⟩ := List.mem_map.mp hline
    obtain ⟨o', p, hp⟩ := h line hline
    have ho' : o = o' := Table.eq_of_pk_eq (t := db.commercialPrices) hknown hp.known
      (hpk.symm.trans hp.offer.symm)
    exact ⟨p, ho' ▸ hp.toSelectable⟩
  obtain ⟨selections, hselections⟩ : ∃ selections,
      offers.mapM (validateOfferSelection db) = .ok selections := by
    refine mapM_ok (fun o ho => ?_)
    obtain ⟨p, hp⟩ := hselected o ho
    exact ⟨_, (validateOfferSelection_eq_ok hp.known).mpr ⟨p, hp, rfl⟩⟩
  -- every line finds its selection
  have hfind : ∀ line ∈ inputs, ∃ s, selections.find? (fun s => s.1.pk = line.commercialOfferId)
      = some s := by
    intro line hline
    obtain ⟨o, p, hp⟩ := h line hline
    have ho : o ∈ offers := (hmem o).mpr ⟨hp.known, List.mem_map.mpr ⟨line, hline, hp.offer.symm⟩⟩
    obtain ⟨s, hs⟩ := returns_of_mapM hselections o ho
    have hsel : s ∈ selections := (mem_mapM hselections).mpr ⟨o, ho, hs⟩
    obtain ⟨p', -, rfl⟩ := (validateOfferSelection_eq_ok hp.known).mp hs
    rw [← Option.isSome_iff_exists, List.find?_isSome]
    exact ⟨_, hsel, by simpa using hp.offer⟩
  have hfound := fun k s => find_selection (k := k) (s := s)
    (fun o ho => ((hmem o).mp ho).1) hselections
  obtain ⟨es, hes⟩ : ∃ es, inputs.mapM (offerEntry selections) = .ok es := by
    refine mapM_ok (fun line hline => ?_)
    obtain ⟨s, hs⟩ := hfind line hline
    obtain ⟨o, p, hp⟩ := h line hline
    obtain ⟨hselectable, -, -⟩ := hfound _ s hs
    have hpos : 0 < s.2.1.stockUnits line.quantity line.unit :=
      stockUnits_pos (hweights _ hselectable.product.1) hp.quantity
    exact ⟨_, offerEntry_eq_ok.mpr ⟨s, hs, hp.quantity, hpos, rfl⟩⟩
  have hkeys : ∀ e ∈ es, ∃ line ∈ inputs, e.1 = line.commercialOfferId := by
    intro e he
    obtain ⟨line, hline, hle⟩ := exists_of_mem_mapM hes he
    obtain ⟨s, hs, -, -, rfl⟩ := offerEntry_eq_ok.mp hle
    exact ⟨line, hline, (hfound _ s hs).2.1⟩
  obtain ⟨resolved, hresolved⟩ : ∃ resolved, (Dict.accumulate es).entries.mapM (fun e => (do
      let selection ← orRaise (selections.find? (fun s => s.1.pk = e.1)) Error.keyError
      return ⟨selection.2.1, e.2, selection.1, selection.2.2⟩ : Result ResolvedOrderLine))
        = .ok resolved := by
    refine mapM_ok (fun e he => ?_)
    obtain ⟨e', he', hk⟩ := List.mem_map.mp (Dict.mem_entries_accumulate.mp he).1
    obtain ⟨line, hline, hoffer⟩ := hkeys e' he'
    obtain ⟨s, hs⟩ := hfind line hline
    refine ⟨_, bind_eq_ok.mpr ⟨s, orRaise_eq_ok.mpr ?_, rfl⟩⟩
    rw [← hk, hoffer, hs]
  refine ⟨resolved, ?_, selections, hselections, Dict.accumulate es,
    (Dict.foldlM_add_eq_ok (fun d line d' => addOfferEntry_eq_ok selections line d d')).mpr
      ⟨es, hes, rfl⟩, hresolved⟩
  -- no offer is missing
  rw [List.eq_nil_iff_forall_not_mem]
  intro k hk
  rw [List.mem_insertionSort, List.mem_filter, List.mem_dedup] at hk
  obtain ⟨line, hline, rfl⟩ := List.mem_map.mp hk.1
  obtain ⟨o, p, hp⟩ := h line hline
  have ho : o ∈ offers := (hmem o).mpr ⟨hp.known, List.mem_map.mpr ⟨line, hline, hp.offer.symm⟩⟩
  have hnone : ∀ x ∈ offers, ¬ x.pk = line.commercialOfferId := by simpa using hk.2
  exact hnone o ho hp.offer

/-! ### By product -/

/-- A product that is ordered through its standard offer. -/
structure OrderedProduct (db : Db) (p : Product) (o : CommercialPrice) : Prop where
  product : p ∈ db.products
  standard : standardBusinessOffer db p.pk = some o
  enabled : o.enabled = true

/-- A product line that resolves. -/
structure ResolvableProduct (db : Db) (line : OrderLineInput) (p : Product) : Prop where
  named : line.resolveProductId = .ok p.pk
  product : p ∈ db.products
  quantity : line.unit.Admits line.quantity

/-- The units ordered of a product. -/
def unitsOfProduct (inputs : List OrderLineInput) (p : Product) : ℤ :=
  (inputs.map (fun line =>
    if line.resolveProductId = .ok p.pk then p.stockUnits line.quantity line.unit else 0)).sum

/-- One line for each product of the input, with the units ordered of it. -/
structure MergedProducts (db : Db) (inputs : List OrderLineInput)
    (resolved : List ResolvedOrderLine) : Prop where
  distinct : (resolved.map (fun r => r.product.pk)).Nodup
  products : ∀ k, k ∈ resolved.map (fun r => r.product.pk) ↔
    ∃ line ∈ inputs, line.resolveProductId = .ok k
  ordered : ∀ r ∈ resolved, OrderedProduct db r.product r.commercialOffer
  quantity : ∀ r ∈ resolved, r.quantityInUnits = unitsOfProduct inputs r.product

/-- What one line adds to the quantities. -/
def productEntry (db : Db) (e : OrderLineInput × ℕ) : Result (ℕ × ℤ) := do
  let product ← orRaise (db.products.get? e.2)
    (.invalidOrderOperation ("Product " ++ toString e.2 ++ " does not exist"))
  let quantityInUnits ← quantityToUnits product e.1.quantity e.1.unit
  requirePositiveQuantity quantityInUnits
  return (e.2, quantityInUnits)

/-- An entry is made for the product found, with the units asked for. -/
theorem productEntry_eq_ok {e : OrderLineInput × ℕ} {x : ℕ × ℤ} :
    productEntry db e = .ok x ↔ ∃ p ∈ db.products, p.pk = e.2 ∧ e.1.unit.Admits e.1.quantity
      ∧ 0 < p.stockUnits e.1.quantity e.1.unit
      ∧ (e.2, p.stockUnits e.1.quantity e.1.unit) = x := by
  unfold productEntry requirePositiveQuantity
  simp only [bind_eq_ok, orRaise_eq_ok, require_eq_ok, exists_const, pure_eq_ok,
    quantityToUnits_eq_ok, Table.get?_eq_some, pk_product]
  refine exists_congr (fun p => ?_)
  constructor
  · rintro ⟨⟨hp, hpk⟩, n, ⟨hadmits, rfl⟩, hpos, hx⟩
    exact ⟨hp, hpk, hadmits, hpos, hx⟩
  · rintro ⟨hp, hpk, hadmits, hpos, hx⟩
    exact ⟨⟨hp, hpk⟩, _, ⟨hadmits, rfl⟩, hpos, hx⟩

/-- One round of the loop adds the entry of its line. -/
theorem addProductEntry_eq_ok (db : Db) (e : OrderLineInput × ℕ) (quantities quantities' : Dict ℕ ℤ) :
    (do
      let product ← orRaise (db.products.get? e.2)
        (Error.invalidOrderOperation ("Product " ++ toString e.2 ++ " does not exist"))
      let quantityInUnits ← quantityToUnits product e.1.quantity e.1.unit
      requirePositiveQuantity quantityInUnits
      return quantities.add e.2 quantityInUnits) = Except.ok quantities' ↔
      ∃ x, productEntry db e = .ok x ∧ quantities.add x.1 x.2 = quantities' := by
  unfold productEntry
  simp only [bind_eq_ok, orRaise_eq_ok, pure_eq_ok]
  constructor
  · rintro ⟨p, hp, n, hn, u, hu, rfl⟩
    exact ⟨_, ⟨p, hp, n, hn, u, hu, rfl⟩, rfl⟩
  · rintro ⟨_, ⟨p, hp, n, hn, u, hu, rfl⟩, rfl⟩
    exact ⟨p, hp, n, hn, u, hu, rfl⟩

/-- The standard offers of a list of products, all of them enabled. -/
theorem standardOffers_of_ok {products : List Product} {offers : List (ℕ × CommercialPrice)}
    (h : standardBusinessOffersByProductId db products = .ok offers) :
    List.Forall₂ (fun p e => (∃ o, standardBusinessOffer db p.pk = some o ∧ o.enabled = true
      ∧ e = (p.pk, o))) products offers := by
  unfold standardBusinessOffersByProductId at h
  simp only [bind_eq_ok, require_eq_ok, exists_const] at h
  obtain ⟨-, hdisabled, hoffers⟩ := h
  -- a disabled offer would have been reported
  have henabled : ∀ p ∈ products, ∀ o, standardBusinessOffer db p.pk = some o → o.enabled = true := by
    intro p hp o ho
    by_contra hno
    have hmem : p ∈ products.filter
        (fun p => (standardBusinessOffer db p.pk).all (fun o => !o.enabled)) :=
      List.mem_filter.mpr ⟨hp, by simpa [ho] using hno⟩
    rw [hdisabled] at hmem
    cases hmem
  have hall := (List.forall₂_and_left _ _).mpr ⟨henabled, forall₂_of_mapM hoffers⟩
  refine hall.imp (fun p e hpe => ?_)
  obtain ⟨hen, he⟩ := hpe
  simp only [bind_eq_ok, orRaise_eq_ok, pure_eq_ok] at he
  obtain ⟨o, ho, rfl⟩ := he
  exact ⟨o, ho, hen o ho, rfl⟩

/-- Products that all have an enabled standard offer get theirs. -/
theorem standardOffers_ok {products : List Product}
    (h : ∀ p ∈ products, ∃ o, standardBusinessOffer db p.pk = some o ∧ o.enabled = true) :
    ∃ offers, standardBusinessOffersByProductId db products = .ok offers := by
  -- neither of the two reports has anything to say
  have hmissing : products.filter (fun p => (standardBusinessOffer db p.pk).isNone) = [] := by
    refine List.filter_eq_nil_iff.mpr (fun p hp => ?_)
    obtain ⟨o, ho, -⟩ := h p hp
    simp [ho]
  have hdisabled : products.filter
      (fun p => (standardBusinessOffer db p.pk).all (fun o => !o.enabled)) = [] := by
    refine List.filter_eq_nil_iff.mpr (fun p hp => ?_)
    obtain ⟨o, ho, henabled⟩ := h p hp
    simp [ho, henabled]
  unfold standardBusinessOffersByProductId
  simp only [hmissing, hdisabled, bind_eq_ok, require_eq_ok, exists_const, true_and]
  refine mapM_ok (fun p hp => ?_)
  obtain ⟨o, ho, -⟩ := h p hp
  exact ⟨(p.pk, o), bind_eq_ok.mpr ⟨o, orRaise_eq_ok.mpr ho, rfl⟩⟩

/-- The lines with their products' keys. -/
theorem resolvedInputs_eq_ok {inputs : List OrderLineInput} {pairs : List (OrderLineInput × ℕ)}
    (h : inputs.mapM (fun line => do return (line, ← line.resolveProductId)) = Except.ok pairs) :
    List.Forall₂ (fun line e => e.1 = line ∧ line.resolveProductId = .ok e.2) inputs pairs := by
  refine (forall₂_of_mapM h).imp (fun line e he => ?_)
  simp only [bind_eq_ok, pure_eq_ok] at he
  obtain ⟨k, hk, rfl⟩ := he
  exact ⟨rfl, hk⟩

/-- **What a resolution by product returns.** -/
theorem mergedProducts_of_resolve {inputs : List OrderLineInput} {resolved : List ResolvedOrderLine}
    (h : resolveBusinessOrderLines db inputs = .ok resolved) :
    (∀ line ∈ inputs, ∃ p o, ResolvableProduct db line p ∧ OrderedProduct db p o)
      ∧ MergedProducts db inputs resolved := by
  unfold resolveBusinessOrderLines at h
  simp only [bind_eq_ok] at h
  obtain ⟨pairs, hinputs, quantities, hquantities, products, hproducts, offers, hoffers, hlines⟩ := h
  obtain ⟨es, hes, rfl⟩ := (Dict.foldlM_add_eq_ok
    (fun d e d' => addProductEntry_eq_ok db e d d')).mp hquantities
  have hpairs := resolvedInputs_eq_ok hinputs
  -- each entry stands for a line that resolves
  have hentries : List.Forall₂ (fun line x => ∃ p, ResolvableProduct db line p
      ∧ x = (p.pk, p.stockUnits line.quantity line.unit)) inputs es := by
    have hsteps := forall₂_of_mapM hes
    clear hinputs hquantities hlines hoffers hproducts hes
    induction hpairs generalizing es with
    | nil =>
      cases hsteps
      exact .nil
    | cons hline _ ih =>
      cases hsteps with
      | cons hx hsteps =>
        obtain ⟨rfl, hnamed⟩ := hline
        obtain ⟨p, hp, hpk, hadmits, -, rfl⟩ := productEntry_eq_ok.mp hx
        exact .cons ⟨p, ⟨by rw [hnamed, hpk], hp, hadmits⟩, by rw [hpk]⟩ (ih _ hsteps)
  have hkey : ∀ k, k ∈ es.map Prod.fst ↔ ∃ line ∈ inputs, line.resolveProductId = .ok k := by
    intro k
    rw [List.mem_map]
    constructor
    · rintro ⟨x, hx, rfl⟩
      obtain ⟨line, hline, p, hp, rfl⟩ := forall₂_right hentries x hx
      exact ⟨line, hline, hp.named⟩
    · rintro ⟨line, hline, hk⟩
      obtain ⟨x, hx, p, hp, rfl⟩ := forall₂_left hentries line hline
      rw [hp.named, Except.ok.injEq] at hk
      exact ⟨_, hx, hk⟩
  have hsum : ∀ p ∈ db.products,
      (es.map (fun x => if x.1 = p.pk then x.2 else 0)).sum = unitsOfProduct inputs p := by
    intro p hp
    refine congrArg List.sum (map_eq_of_forall₂ hentries (fun line x hx => ?_))
    obtain ⟨p', hline, rfl⟩ := hx
    have hnamed : line.resolveProductId = .ok p.pk ↔ p'.pk = p.pk := by
      rw [hline.named, Except.ok.injEq]
    by_cases hk : p'.pk = p.pk
    · rw [if_pos (hnamed.mpr hk), if_pos hk,
        Table.eq_of_pk_eq (t := db.products) hline.product hp hk]
    · rw [if_neg (fun h => hk (hnamed.mp h)), if_neg hk]
  have hproducts : List.Forall₂ (fun k p => p ∈ db.products ∧ p.pk = k) (Dict.accumulate es).keys
      products :=
    (forall₂_of_mapM hproducts).imp (fun k p hp => Table.get?_eq_some.mp (orRaise_eq_ok.mp hp))
  have hoffers := standardOffers_of_ok hoffers
  have hresolved : List.Forall₂ (fun e r => OrderedProduct db r.product r.commercialOffer
      ∧ r.product.pk = e.1 ∧ r.quantityInUnits = e.2) (Dict.accumulate es).entries resolved := by
    refine (forall₂_of_mapM hlines).imp (fun e r hr => ?_)
    simp only [bind_eq_ok, orRaise_eq_ok, pure_eq_ok] at hr
    obtain ⟨p, hp, o, ho, rfl⟩ := hr
    obtain ⟨hp, hpk⟩ := Table.get?_eq_some.mp (orRaise_eq_ok.mp hp)
    obtain ⟨pre, post, hsplit, -⟩ := List.lookup_eq_some_iff.mp ho
    have hmem : (e.1, o) ∈ offers := by rw [hsplit]; simp
    obtain ⟨p', -, o', ho', henabled, heq⟩ := forall₂_right hoffers _ hmem
    obtain ⟨hk, rfl⟩ := Prod.mk.inj heq
    exact ⟨⟨hp, by rw [← ho', ← hk, ← hpk]; rfl, henabled⟩, hpk, rfl⟩
  have hpks : resolved.map (fun r => r.product.pk) = (Dict.accumulate es).keys :=
    map_eq_of_forall₂ hresolved (fun e r hr => hr.2.1)
  refine ⟨fun line hline => ?_, ⟨hpks ▸ (Dict.accumulate es).nodup, fun k => ?_, fun r hr => ?_,
    fun r hr => ?_⟩⟩
  · obtain ⟨x, hx, p, hp, rfl⟩ := forall₂_left hentries line hline
    have hk : p.pk ∈ (Dict.accumulate es).keys :=
      Dict.mem_keys_accumulate.mpr (List.mem_map.mpr ⟨_, hx, rfl⟩)
    obtain ⟨p', hp', hmem, hpk⟩ := forall₂_left hproducts p.pk hk
    obtain ⟨e, -, o, ho, henabled, -⟩ := forall₂_left hoffers p' hp'
    exact ⟨p, o, hp, ⟨hp.product, hpk ▸ ho, henabled⟩⟩
  · rw [hpks, Dict.mem_keys_accumulate, hkey]
  · obtain ⟨e, -, hordered, -⟩ := forall₂_right hresolved r hr
    exact hordered
  · obtain ⟨e, he, hordered, hpk, hquantity⟩ := forall₂_right hresolved r hr
    rw [hquantity, (Dict.mem_entries_accumulate.mp he).2, ← hpk, hsum _ hordered.product]

/-- **What resolves by product.** -/
theorem resolve_of_resolvableProducts {inputs : List OrderLineInput}
    (hweights : ∀ p ∈ db.products, 0 < p.weightPerUnit)
    (h : ∀ line ∈ inputs, ∃ p o, ResolvableProduct db line p ∧ OrderedProduct db p o) :
    ∃ resolved, resolveBusinessOrderLines db inputs = .ok resolved := by
  unfold resolveBusinessOrderLines
  simp only [bind_eq_ok]
  obtain ⟨pairs, hpairs⟩ : ∃ pairs, inputs.mapM (fun line => do
      return (line, ← line.resolveProductId)) = Except.ok pairs := by
    refine mapM_ok (fun line hline => ?_)
    obtain ⟨p, -, hp, -⟩ := h line hline
    exact ⟨(line, p.pk), bind_eq_ok.mpr ⟨p.pk, hp.named, rfl⟩⟩
  have hnamed := resolvedInputs_eq_ok hpairs
  have hpair : ∀ e ∈ pairs, ∃ p o, p.pk = e.2 ∧ e.1.unit.Admits e.1.quantity
      ∧ OrderedProduct db p o := by
    intro e he
    obtain ⟨line, hline, rfl, hk⟩ := forall₂_right hnamed e he
    obtain ⟨p, o, hp, ho⟩ := h _ hline
    have hpk := hp.named
    rw [hk, Except.ok.injEq] at hpk
    exact ⟨p, o, hpk.symm, hp.quantity, ho⟩
  obtain ⟨es, hes⟩ : ∃ es, pairs.mapM (productEntry db) = .ok es := by
    refine mapM_ok (fun e he => ?_)
    obtain ⟨p, o, hpk, hadmits, hp⟩ := hpair e he
    have hpos := stockUnits_pos (hweights p hp.product) hadmits
    exact ⟨_, productEntry_eq_ok.mpr ⟨p, hp.product, hpk, hadmits, hpos, rfl⟩⟩
  -- every key is that of a product with an enabled standard offer
  have hkeys : ∀ k ∈ (Dict.accumulate es).keys, ∃ p o, p.pk = k ∧ OrderedProduct db p o := by
    intro k hk
    obtain ⟨x, hx, rfl⟩ := List.mem_map.mp (Dict.mem_keys_accumulate.mp hk)
    obtain ⟨e, he, hxe⟩ := exists_of_mem_mapM hes hx
    obtain ⟨p, -, -, -, -, rfl⟩ := productEntry_eq_ok.mp hxe
    obtain ⟨p, o, hpk, -, hp⟩ := hpair e he
    exact ⟨p, o, hpk, hp⟩
  have hget : ∀ k ∈ (Dict.accumulate es).keys, ∃ p o, db.getProduct k = .ok p
      ∧ p.pk = k ∧ standardBusinessOffer db p.pk = some o ∧ o.enabled = true := by
    intro k hk
    obtain ⟨p, o, hpk, hp⟩ := hkeys k hk
    exact ⟨p, o, orRaise_eq_ok.mpr (Table.get?_eq_some.mpr ⟨hp.product, hpk⟩), hpk, hp.standard,
      hp.enabled⟩
  obtain ⟨products, hproducts⟩ : ∃ products,
      (Dict.accumulate es).keys.mapM db.getProduct = .ok products := by
    refine mapM_ok (fun k hk => ?_)
    obtain ⟨p, o, hp, -⟩ := hget k hk
    exact ⟨p, hp⟩
  obtain ⟨offers, hoffers⟩ : ∃ offers,
      standardBusinessOffersByProductId db products = .ok offers := by
    refine standardOffers_ok (fun p hp => ?_)
    obtain ⟨k, hk, hkp⟩ := exists_of_mem_mapM hproducts hp
    obtain ⟨p', o, hp', hpk, ho, henabled⟩ := hget k hk
    rw [hkp, Except.ok.injEq] at hp'
    exact ⟨o, hp' ▸ ho, henabled⟩
  have hstandard := standardOffers_of_ok hoffers
  obtain ⟨resolved, hresolved⟩ : ∃ resolved, (Dict.accumulate es).entries.mapM (fun e => do
      let product ← db.getProduct e.1
      let offer ← orRaise (offers.lookup e.1) Error.keyError
      return (⟨product, e.2, offer, none⟩ : ResolvedOrderLine)) = .ok resolved := by
    refine mapM_ok (fun e he => ?_)
    obtain ⟨p, o, hp, hpk, -⟩ := hget e.1 (List.mem_map_of_mem he)
    have hmem : p ∈ products := (mem_mapM hproducts).mpr ⟨e.1, List.mem_map_of_mem he, hp⟩
    obtain ⟨x, hx, o', -, -, rfl⟩ := forall₂_left hstandard p hmem
    cases hlookup : offers.lookup e.1 with
    | none =>
      have hne := List.lookup_eq_none_iff.mp hlookup _ hx
      simp [hpk] at hne
    | some o'' =>
      exact ⟨_, bind_eq_ok.mpr ⟨p, hp, bind_eq_ok.mpr ⟨o'', rfl, rfl⟩⟩⟩
  exact ⟨resolved, pairs, hpairs, Dict.accumulate es,
    (Dict.foldlM_add_eq_ok (fun d e d' => addProductEntry_eq_ok db e d d')).mpr ⟨es, hes, rfl⟩,
    products, hproducts, offers, hoffers, hresolved⟩

end SwedeSweets
