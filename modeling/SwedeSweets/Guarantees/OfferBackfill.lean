import SwedeSweets.Orders.OfferBackfill

namespace SwedeSweets

open Relational Fallible

/-!
# The offer backfill

* `Offered` — the rules that give a line its offer, in the order in which they are tried;
* `backfill_total_faithful_atomic` — the migration raises if and only if no rule gives some line
  an offer, and then it has written nothing; otherwise each line has the offer that the rules
  give it, and running the migration again changes nothing.
-/

/-- The rules: an offer that is there stays; a priced retail selection, then a priced business
    selection is copied; and what is left of the business lines gets the standard offer. -/
inductive Offered (db : HistoricalDb) (l : HistoricalLine) : ℕ → Prop where
  | kept {k : ℕ} (own : l.commercialOfferId = some k) : Offered db l k
  | retail {k : ℕ} (none : l.commercialOfferId = none)
      (selection : db.retailOfferSelections.get? l.pk = some (some k)) : Offered db l k
  | business {k : ℕ} (none : l.commercialOfferId = none)
      (unpriced : ∀ k, db.retailOfferSelections.get? l.pk ≠ some (some k))
      (selection : db.businessOfferSelections.get? l.pk = some (some k)) : Offered db l k
  | standard {o : Order} {offer : CommercialPrice} (none : l.commercialOfferId = none)
      (unpriced : ∀ k, db.retailOfferSelections.get? l.pk ≠ some (some k))
      (unpriced' : ∀ k, db.businessOfferSelections.get? l.pk ≠ some (some k))
      (order : o ∈ db.orders ∧ o.pk = l.orderId) (channel : o.channel = .business)
      (known : offer ∈ db.commercialPrices) (isStandard : offer.isStandardBusiness = true)
      (product : offer.productId = l.productId) : Offered db l offer.pk

/-- Foreign keys and unique columns: a line has an order, and a product has one standard offer. -/
structure HistoricalDb.Consistent (db : HistoricalDb) : Prop where
  lineOrder : ∀ l ∈ db.lines, ∃ o ∈ db.orders, o.pk = l.orderId
  standard : ∀ o ∈ db.commercialPrices, ∀ o' ∈ db.commercialPrices,
    o.isStandardBusiness = true → o'.isStandardBusiness = true → o.productId = o'.productId → o = o'

/-- What a successful migration leaves behind. -/
structure Backfilled (db db' : HistoricalDb) : Prop where
  others : db' = { db with lines := db'.lines }
  line : ∀ l', l' ∈ db'.lines ↔
    ∃ l ∈ db.lines, ∃ k, Offered db l k ∧ l' = { l with commercialOfferId := some k }

/-! ### The two dictionaries -/

/-- A line has one selection at most. -/
theorem nodup_pricedSelections (selections : Dict ℕ (Option ℕ)) :
    ((pricedSelections selections).map Prod.fst).Nodup := by
  refine Dict.nodup_filterMap Prod.fst Prod.fst ?_ selections.nodup
  intro entry entry' h
  obtain ⟨price, -, rfl⟩ := Option.map_eq_some_iff.mp h
  rfl

/-- A priced selection is a selection with an offer. -/
theorem lookup_pricedSelections (selections : Dict ℕ (Option ℕ)) (k v : ℕ) :
    (pricedSelections selections).lookup k = some v ↔ selections.get? k = some (some v) := by
  rw [Dict.lookup_eq_some_iff_mem (nodup_pricedSelections selections), Dict.get?,
    Dict.lookup_eq_some_iff_mem selections.nodup, pricedSelections, List.mem_filterMap]
  constructor
  · rintro ⟨entry, hentry, hprice⟩
    obtain ⟨price, hpriced, heq⟩ := Option.map_eq_some_iff.mp hprice
    obtain ⟨rfl, rfl⟩ := Prod.mk.inj heq
    rwa [← hpriced]
  · intro hentry
    exact ⟨(k, some v), hentry, rfl⟩

section

variable {db : HistoricalDb} {l : HistoricalLine}

/-- A priced retail selection overrides a priced business selection. -/
theorem get?_explicitOfferByLineId (db : HistoricalDb) (k v : ℕ) :
    db.explicitOfferByLineId.get? k = some v ↔ db.retailOfferSelections.get? k = some (some v)
      ∨ (∀ w, db.retailOfferSelections.get? k ≠ some (some w))
        ∧ db.businessOfferSelections.get? k = some (some v) := by
  have hget : db.explicitOfferByLineId.get? k = ((pricedSelections db.retailOfferSelections).lookup k).or
      (((pricedSelections db.businessOfferSelections).lookup k).or none) := by
    unfold HistoricalDb.explicitOfferByLineId
    rw [Dict.get?_update (nodup_pricedSelections _), Dict.get?_update (nodup_pricedSelections _)]
    rfl
  rw [hget, Option.or_none, Option.or_eq_some_iff, lookup_pricedSelections,
    lookup_pricedSelections, Option.eq_none_iff_forall_ne_some]
  refine or_congr_right (and_congr_left (fun _ => forall_congr' (fun w => ?_)))
  exact not_congr (lookup_pricedSelections _ k w)

/-- The standard offer of a product, found by the product. -/
theorem get?_standardOfferByProductId (hdb : db.Consistent) (p k : ℕ) :
    db.standardOfferByProductId.get? p = some k ↔
      ∃ o ∈ db.commercialPrices, o.isStandardBusiness = true ∧ o.productId = p ∧ o.pk = k := by
  -- A product has one standard offer, so no later row replaces it.
  have hnd : (((db.commercialPrices.select CommercialPrice.isStandardBusiness).map
      (fun o => (o.productId, o.pk))).map Prod.fst).Nodup := by
    rw [List.map_map]
    refine List.Nodup.map_on ?_ (List.Nodup.of_map _ (Table.select_nodup_pk _ _))
    intro o ho o' ho' hproduct
    obtain ⟨hmem, hstandard⟩ := Table.mem_select.mp ho
    obtain ⟨hmem', hstandard'⟩ := Table.mem_select.mp ho'
    exact hdb.standard o hmem o' hmem' hstandard hstandard' hproduct
  have hget : db.standardOfferByProductId.get? p
      = ((db.commercialPrices.select CommercialPrice.isStandardBusiness).map
          (fun o => (o.productId, o.pk))).lookup p := by
    unfold HistoricalDb.standardOfferByProductId
    rw [Dict.get?_update hnd]
    exact Option.or_none
  rw [hget, Dict.lookup_eq_some_iff_mem hnd]
  simp [and_assoc]

/-! ### One line -/

/-- For a line without an offer, the code finds what the rules give. -/
theorem resolveBackfill_eq_ok (hdb : db.Consistent) (hnone : l.commercialOfferId = none) {o : Order}
    (ho : db.orders.get? l.orderId = some o) (k : ℕ) :
    resolveBackfill db.explicitOfferByLineId db.standardOfferByProductId l o.channel = .ok k ↔
      Offered db l k := by
  unfold resolveBackfill
  cases hexplicit : db.explicitOfferByLineId.get? l.pk with
  | some v =>
    have hrule := (get?_explicitOfferByLineId db l.pk v).mp hexplicit
    constructor
    · rintro ⟨⟩
      rcases hrule with hretail | ⟨hunpriced, hbusiness⟩
      · exact .retail hnone hretail
      · exact .business hnone hunpriced hbusiness
    · -- whichever rule gave `k`, it is the one that the dictionary holds
      intro hk
      cases hk with
      | kept own => simp [hnone] at own
      | retail _ selection =>
        have hk := (get?_explicitOfferByLineId db l.pk k).mpr (Or.inl selection)
        rw [hexplicit, Option.some.injEq] at hk
        rw [hk]
      | business _ unpriced selection =>
        have hk := (get?_explicitOfferByLineId db l.pk k).mpr (Or.inr ⟨unpriced, selection⟩)
        rw [hexplicit, Option.some.injEq] at hk
        rw [hk]
      | standard _ unpriced unpriced' =>
        rcases hrule with hretail | ⟨-, hbusiness⟩
        · exact absurd hretail (unpriced v)
        · exact absurd hbusiness (unpriced' v)
  | none =>
    have hunpriced : ∀ v, db.retailOfferSelections.get? l.pk ≠ some (some v) := by
      intro v hv
      simp [(get?_explicitOfferByLineId db l.pk v).mpr (Or.inl hv)] at hexplicit
    have hunpriced' : ∀ v, db.businessOfferSelections.get? l.pk ≠ some (some v) := by
      intro v hv
      simp [(get?_explicitOfferByLineId db l.pk v).mpr (Or.inr ⟨hunpriced, hv⟩)] at hexplicit
    -- only the standard offer of a business line is left
    have hstandard := get?_standardOfferByProductId hdb l.productId
    have hrest : Offered db l k ↔ o.channel = .business
        ∧ db.standardOfferByProductId.get? l.productId = some k := by
      rw [hstandard]
      constructor
      · intro hk
        cases hk with
        | kept own => simp [hnone] at own
        | retail _ selection => exact absurd selection (hunpriced k)
        | business _ _ selection => exact absurd selection (hunpriced' k)
        | standard _ _ _ order channel known isStandard product =>
          have hsame := (Table.get?_eq_some.mpr order).symm.trans ho
          rw [← Option.some.inj hsame]
          exact ⟨channel, _, known, isStandard, product, rfl⟩
      · rintro ⟨hchannel, offer, hknown, hisStandard, hproduct, rfl⟩
        exact .standard hnone hunpriced hunpriced' (Table.get?_eq_some.mp ho) hchannel hknown
          hisStandard hproduct
    rw [hrest]
    by_cases hchannel : o.channel = .business
    · cases hget : db.standardOfferByProductId.get? l.productId <;> simp [hchannel]
    · simp [hchannel]

/-- The lines read have no offer, and come with their order's channel. -/
theorem mem_linesWithoutOffer {entry : HistoricalLine × Channel} :
    entry ∈ db.linesWithoutOffer ↔ (entry.1 ∈ db.lines ∧ entry.1.commercialOfferId = none)
      ∧ ∃ o, db.orders.get? entry.1.orderId = some o ∧ o.channel = entry.2 := by
  unfold HistoricalDb.linesWithoutOffer
  simp only [List.mem_filterMap, Table.mem_select, decide_eq_true_eq, Option.map_eq_some_iff]
  constructor
  · rintro ⟨l, hl, o, ho, rfl⟩
    exact ⟨hl, o, ho, rfl⟩
  · rintro ⟨hl, o, ho, hchannel⟩
    exact ⟨entry.1, hl, o, ho, by rw [hchannel]⟩

end

/-! ### The loop -/

/-- The message for a line without an offer. -/
def unresolvedLine (explicitOfferByLineId standardOfferByProductId : Dict ℕ ℕ)
    (entry : HistoricalLine × Channel) : Option String :=
  match resolveBackfill explicitOfferByLineId standardOfferByProductId entry.1 entry.2 with
  | .ok _ => none
  | .error message => some message

/-- The line with the offer found for it. -/
def updatedLine (explicitOfferByLineId standardOfferByProductId : Dict ℕ ℕ)
    (entry : HistoricalLine × Channel) : Option HistoricalLine :=
  match resolveBackfill explicitOfferByLineId standardOfferByProductId entry.1 entry.2 with
  | .ok offerId => some { entry.1 with commercialOfferId := some offerId }
  | .error _ => none

section

variable {explicit standard : Dict ℕ ℕ} {entry : HistoricalLine × Channel}

/-- A line is updated with the offer that is resolved for it. -/
theorem updatedLine_eq_some {l' : HistoricalLine} :
    updatedLine explicit standard entry = some l' ↔
      ∃ k, resolveBackfill explicit standard entry.1 entry.2 = .ok k
        ∧ l' = { entry.1 with commercialOfferId := some k } := by
  unfold updatedLine
  cases resolveBackfill explicit standard entry.1 entry.2 with
  | ok k => simp [eq_comm]
  | error message => simp

/-- A line is left out of the message when an offer is resolved for it. -/
theorem unresolvedLine_eq_none :
    unresolvedLine explicit standard entry = none ↔
      ∃ k, resolveBackfill explicit standard entry.1 entry.2 = .ok k := by
  unfold unresolvedLine
  cases resolveBackfill explicit standard entry.1 entry.2 with
  | ok k => simp
  | error message => simp

/-- The loop sorts the lines into those with and those without an offer. -/
theorem foldl_backfillLine (entries : List (HistoricalLine × Channel))
    (state : List String × List HistoricalLine) :
    entries.foldl (backfillLine explicit standard) state
      = (state.1 ++ entries.filterMap (unresolvedLine explicit standard),
          state.2 ++ entries.filterMap (updatedLine explicit standard)) := by
  induction entries generalizing state with
  | nil => simp
  | cons entry entries ih =>
    rw [List.foldl_cons, ih]
    unfold backfillLine
    cases h : resolveBackfill explicit standard entry.1 entry.2 with
    | ok k => simp [unresolvedLine, updatedLine, h]
    | error message => simp [unresolvedLine, updatedLine, h]

end

/-! ### The migration -/

section

variable (readOrder : SetOrder (HistoricalLine × Channel)) {db : HistoricalDb}

/-- The messages and the updates of the scan. -/
def HistoricalDb.unresolved (db : HistoricalDb) : List String :=
  (readOrder.arrange db.linesWithoutOffer).filterMap
    (unresolvedLine db.explicitOfferByLineId db.standardOfferByProductId)

def HistoricalDb.updated (db : HistoricalDb) : List HistoricalLine :=
  (readOrder.arrange db.linesWithoutOffer).filterMap
    (updatedLine db.explicitOfferByLineId db.standardOfferByProductId)

/-- The backfill raises before it writes anything. -/
theorem backfillCommercialOffers_eq (db : HistoricalDb) :
    backfillCommercialOffers readOrder db
      = if db.unresolved readOrder ≠ [] then
          (db, .error (.runtimeError (unresolvedMessage (db.unresolved readOrder))))
        else ({ db with lines := (db.updated readOrder).foldl Table.put db.lines }, .ok ()) := by
  unfold backfillCommercialOffers
  rw [foldl_backfillLine]
  simp only [List.nil_append]
  rfl

/-- No line is unresolved when every line has its offer. -/
theorem unresolved_eq_nil_iff (hdb : db.Consistent) :
    db.unresolved readOrder = [] ↔ ∀ l ∈ db.lines, ∃ k, Offered db l k := by
  unfold HistoricalDb.unresolved
  rw [List.filterMap_eq_nil_iff]
  -- A line with an offer keeps it; the others are among the lines read.
  constructor
  · intro hall l hl
    cases hown : l.commercialOfferId with
    | some k => exact ⟨k, .kept hown⟩
    | none =>
      obtain ⟨o, ho, hpk⟩ := hdb.lineOrder l hl
      have hget : db.orders.get? l.orderId = some o := Table.get?_eq_some.mpr ⟨ho, hpk⟩
      have hmem : (l, o.channel) ∈ readOrder.arrange db.linesWithoutOffer :=
        (readOrder.perm _).mem_iff.mpr (mem_linesWithoutOffer.mpr ⟨⟨hl, hown⟩, o, hget, rfl⟩)
      obtain ⟨k, hk⟩ := unresolvedLine_eq_none.mp (hall _ hmem)
      exact ⟨k, (resolveBackfill_eq_ok hdb hown hget k).mp hk⟩
  · intro hall entry hentry
    obtain ⟨⟨hl, hown⟩, o, hget, hchannel⟩ :=
      mem_linesWithoutOffer.mp ((readOrder.perm _).mem_iff.mp hentry)
    obtain ⟨k, hk⟩ := hall entry.1 hl
    refine unresolvedLine_eq_none.mpr ⟨k, ?_⟩
    rw [← hchannel]
    exact (resolveBackfill_eq_ok hdb hown hget k).mpr hk

/-- The updated lines are those without an offer, each with the resolved one. -/
theorem mem_updated (hdb : db.Consistent) {l' : HistoricalLine} :
    l' ∈ db.updated readOrder ↔ ∃ l ∈ db.lines, l.commercialOfferId = none
      ∧ ∃ k, Offered db l k ∧ l' = { l with commercialOfferId := some k } := by
  unfold HistoricalDb.updated
  rw [List.mem_filterMap]
  -- Every line has an order, so every line without an offer is read.
  constructor
  · rintro ⟨entry, hentry, hupdated⟩
    obtain ⟨⟨hl, hown⟩, o, hget, hchannel⟩ :=
      mem_linesWithoutOffer.mp ((readOrder.perm _).mem_iff.mp hentry)
    obtain ⟨k, hk, heq⟩ := updatedLine_eq_some.mp hupdated
    rw [← hchannel] at hk
    exact ⟨entry.1, hl, hown, k, (resolveBackfill_eq_ok hdb hown hget k).mp hk, heq⟩
  · rintro ⟨l, hl, hown, k, hk, heq⟩
    obtain ⟨o, ho, hpk⟩ := hdb.lineOrder l hl
    have hget : db.orders.get? l.orderId = some o := Table.get?_eq_some.mpr ⟨ho, hpk⟩
    refine ⟨(l, o.channel), (readOrder.perm _).mem_iff.mpr
      (mem_linesWithoutOffer.mpr ⟨⟨hl, hown⟩, o, hget, rfl⟩), ?_⟩
    exact updatedLine_eq_some.mpr ⟨k, (resolveBackfill_eq_ok hdb hown hget k).mpr hk, heq⟩

/-- No line is updated twice. -/
theorem nodup_updated (db : HistoricalDb) : ((db.updated readOrder).map Row.pk).Nodup := by
  have hlines : (db.linesWithoutOffer.map (fun entry => entry.1.pk)).Nodup := by
    refine Dict.nodup_filterMap Row.pk (fun entry : HistoricalLine × Channel => entry.1.pk) ?_
      (Table.select_nodup_pk _ _)
    intro l entry h
    obtain ⟨o, -, rfl⟩ := Option.map_eq_some_iff.mp h
    rfl
  refine Dict.nodup_filterMap (fun entry : HistoricalLine × Channel => entry.1.pk) Row.pk ?_
    (((readOrder.perm _).map _).nodup_iff.mpr hlines)
  intro entry l' h
  obtain ⟨k, -, rfl⟩ := updatedLine_eq_some.mp h
  rfl

/-- When every line has an offer, the update gives each line its offer. -/
theorem backfilled_of_resolvable (hdb : db.Consistent)
    (hall : ∀ l ∈ db.lines, ∃ k, Offered db l k) :
    Backfilled db { db with lines := (db.updated readOrder).foldl Table.put db.lines } where
  others := rfl
  line := by
    intro l'
    -- The updates are versions of lines on file.
    have hexists : ∀ x ∈ db.updated readOrder, ∃ y ∈ db.lines, Row.pk y = Row.pk x := by
      intro x hx
      obtain ⟨l, hl, -, k, -, rfl⟩ := (mem_updated readOrder hdb).mp hx
      exact ⟨l, hl, rfl⟩
    rw [Table.mem_foldl_put hexists (nodup_updated readOrder db)]
    constructor
    · rintro (hl' | ⟨hl', hother⟩)
      · obtain ⟨l, hl, -, k, hk, heq⟩ := (mem_updated readOrder hdb).mp hl'
        exact ⟨l, hl, k, hk, heq⟩
      · -- a line that is not updated has an offer of its own
        cases hown : l'.commercialOfferId with
        | some k => exact ⟨l', hl', k, .kept hown, by rw [← hown]⟩
        | none =>
          obtain ⟨k, hk⟩ := hall l' hl'
          have hupdated := (mem_updated readOrder hdb).mpr ⟨l', hl', hown, k, hk, rfl⟩
          exact absurd rfl (hother { l' with commercialOfferId := some k } hupdated)
    · rintro ⟨l, hl, k, hk, rfl⟩
      cases hown : l.commercialOfferId with
      | none => exact Or.inl ((mem_updated readOrder hdb).mpr ⟨l, hl, hown, k, hk, rfl⟩)
      | some k' =>
        have hkept : k = k' := by
          cases hk with
          | kept own => rw [own] at hown; exact Option.some.inj hown
          | retail none | business none | standard none => simp [hown] at none
        have hself : ({ l with commercialOfferId := some k } : HistoricalLine) = l := by
          rw [hkept, ← hown]
        rw [hself]
        refine Or.inr ⟨hl, fun x hx hpk => ?_⟩
        obtain ⟨y, hy, hnone, v, -, rfl⟩ := (mem_updated readOrder hdb).mp hx
        rw [Table.eq_of_pk_eq hl hy hpk, hnone] at hown
        cases hown

/-- Nothing is left to do when every line has an offer. -/
theorem backfillCommercialOffers_eq_self (h : ∀ l ∈ db.lines, l.commercialOfferId ≠ none) :
    backfillCommercialOffers readOrder db = (db, .ok ()) := by
  have hscan : db.linesWithoutOffer = [] := by
    refine List.eq_nil_iff_forall_not_mem.mpr (fun entry hentry => ?_)
    obtain ⟨⟨hl, hown⟩, -⟩ := mem_linesWithoutOffer.mp hentry
    exact h entry.1 hl hown
  have harranged : readOrder.arrange db.linesWithoutOffer = [] := by
    rw [hscan]
    exact List.perm_nil.mp (readOrder.perm [])
  unfold backfillCommercialOffers
  rw [harranged]
  rfl

/-- A retail line gets an offer only from a selection. -/
theorem Offered.of_retail {l : HistoricalLine} {k : ℕ} (h : Offered db l k)
    {o : Order} (ho : o ∈ db.orders ∧ o.pk = l.orderId) (hretail : o.channel = .retail) :
    l.commercialOfferId = some k ∨ db.retailOfferSelections.get? l.pk = some (some k)
      ∨ db.businessOfferSelections.get? l.pk = some (some k) := by
  cases h with
  | kept own => exact Or.inl own
  | retail _ selection => exact Or.inr (Or.inl selection)
  | business _ _ selection => exact Or.inr (Or.inr selection)
  | standard _ _ _ order channel =>
    have hsame := Table.eq_of_pk_eq order.1 ho.1 (order.2.trans ho.2.symm)
    rw [hsame, hretail] at channel
    cases channel

/-- **The backfill is total, faithful and atomic.** -/
theorem backfill_total_faithful_atomic (readOrder readOrder' : SetOrder (HistoricalLine × Channel))
    {db : HistoricalDb} (hdb : db.Consistent) :
    ((∃ e, (backfillCommercialOffers readOrder db).2 = .error e) ↔
        ∃ l ∈ db.lines, ∀ k, ¬ Offered db l k)
      ∧ ((∃ e, (backfillCommercialOffers readOrder db).2 = .error e) →
        (backfillCommercialOffers readOrder db).1 = db)
      ∧ ((backfillCommercialOffers readOrder db).2 = .ok () →
        Backfilled db (backfillCommercialOffers readOrder db).1
          ∧ backfillCommercialOffers readOrder' (backfillCommercialOffers readOrder db).1
            = ((backfillCommercialOffers readOrder db).1, .ok ()))
      ∧ ∀ l ∈ db.lines, ∀ k, Offered db l k → ∀ o ∈ db.orders, o.pk = l.orderId →
        o.channel = .retail → l.commercialOfferId = some k
          ∨ db.retailOfferSelections.get? l.pk = some (some k)
          ∨ db.businessOfferSelections.get? l.pk = some (some k) := by
  have hretail : ∀ l ∈ db.lines, ∀ k, Offered db l k → ∀ o ∈ db.orders, o.pk = l.orderId →
      o.channel = .retail → l.commercialOfferId = some k
        ∨ db.retailOfferSelections.get? l.pk = some (some k)
        ∨ db.businessOfferSelections.get? l.pk = some (some k) :=
    fun l _ k hk o ho hpk hchannel => hk.of_retail ⟨ho, hpk⟩ hchannel
  have hnil := unresolved_eq_nil_iff readOrder hdb
  rw [backfillCommercialOffers_eq]
  -- Either no line is unresolved, or the raise comes first.
  by_cases h : db.unresolved readOrder = []
  · have hall := hnil.mp h
    have hdone := backfilled_of_resolvable readOrder hdb hall
    rw [if_neg (not_not.mpr h)]
    refine ⟨⟨?_, ?_⟩, ?_, fun _ => ⟨hdone, backfillCommercialOffers_eq_self readOrder' ?_⟩, hretail⟩
    · rintro ⟨e, he⟩
      cases he
    · rintro ⟨l, hl, hnone⟩
      obtain ⟨k, hk⟩ := hall l hl
      exact absurd hk (hnone k)
    · rintro ⟨e, he⟩
      cases he
    · intro l' hl' hnone
      obtain ⟨l, -, k, -, rfl⟩ := (hdone.line l').mp hl'
      cases hnone
  · rw [if_pos h]
    refine ⟨⟨fun _ => ?_, fun _ => ⟨_, rfl⟩⟩, fun _ => rfl, nofun, hretail⟩
    rw [hnil] at h
    push Not at h
    exact h

end

/-! ### A history with each kind of line -/

namespace Historical

def order (pk : ℕ) (channel : Channel) : Order :=
  ⟨pk, channel, .eur, none, .placed, 0, none, none, some 0, none, none, none, none, none, none,
    none, "", ""⟩

/-- A business and a retail order; a line with an offer, a business line without a selection, a
    business line with an unpriced one, and a retail line with a priced one. -/
def db : HistoricalDb where
  orders := ⟨[order 1 .business, order 2 .retail], 3, by decide, by decide⟩
  lines := ⟨[⟨1, 1, 8, 2, none, some 20⟩, ⟨2, 1, 7, 1, none, none⟩, ⟨3, 1, 7, 4, none, none⟩,
    ⟨4, 2, 7, 3, none, none⟩], 5, by decide, by decide⟩
  commercialPrices := ⟨[⟨10, 7, none, .business, "", true, []⟩, ⟨20, 8, some 5, .business, "", true, []⟩,
    ⟨30, 7, none, .retail, "", true, []⟩], 31, by decide, by decide⟩
  businessOfferSelections := ⟨[(3, none)], by decide⟩
  retailOfferSelections := ⟨[(4, some 30)], by decide⟩

/-- The example's keys are consistent. -/
theorem db_consistent : db.Consistent where
  lineOrder := by decide
  standard := by decide

/-- The lines are read in key order. -/
def byKey : SetOrder (HistoricalLine × Channel) := ⟨id, fun xs => List.Perm.refl xs⟩

end Historical

/-- The example's backfill goes through. -/
theorem backfill_total_faithful_atomic_history :
    Backfilled Historical.db (backfillCommercialOffers Historical.byKey Historical.db).1 :=
  ((backfill_total_faithful_atomic Historical.byKey Historical.byKey
    Historical.db_consistent).2.2.1 (by decide +kernel)).1

end SwedeSweets
