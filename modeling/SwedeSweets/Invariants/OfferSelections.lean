import SwedeSweets.Business.DraftEffects
import SwedeSweets.Business.Edits
import SwedeSweets.Invariants.Lifecycle
import SwedeSweets.Retail.CartEffects

namespace SwedeSweets

open Relational Fallible

/-!
# Which offer the selections of a line name

A line names its offer twice when it was chosen from a catalog: in its commercial offer, and in
the selection that hangs on it.

* `OrderLine.SelectsOffer` — the two say the same, and there is one selection at most;
* `LineWork` — what a service may leave behind: lines that were there, with the offer and the
  selections they had, and new lines that select their offer.  Whether new lines may also have
  no selection at all is a parameter of it.
-/

/-- A selection hangs on the line. -/
def OrderLine.hasSelection (l : OrderLine) : Bool :=
  l.businessOfferSelection.isSome || l.retailOfferSelection.isSome

structure OrderLine.SelectsOffer (l : OrderLine) : Prop where
  business : ∀ s, l.businessOfferSelection = some s → s = some l.commercialOfferId
  retail : ∀ k, l.retailOfferSelection = some k → k = l.commercialOfferId
  one : l.businessOfferSelection = none ∨ l.retailOfferSelection = none

/-- The line with its offer and its selections unchanged. -/
structure OrderLine.SameOffer (l l' : OrderLine) : Prop where
  offer : l'.commercialOfferId = l.commercialOfferId
  business : l'.businessOfferSelection = l.businessOfferSelection
  retail : l'.retailOfferSelection = l.retailOfferSelection

namespace OrderLine

variable {l l' l'' : OrderLine}

/-- A line left alone has its offer. -/
theorem SameOffer.refl (l : OrderLine) : l.SameOffer l := ⟨rfl, rfl, rfl⟩

/-- A line has its offer through two steps. -/
theorem SameOffer.trans (h : l.SameOffer l') (h' : l'.SameOffer l'') : l.SameOffer l'' :=
  ⟨h'.offer.trans h.offer, h'.business.trans h.business, h'.retail.trans h.retail⟩

/-- With its offer and its selections, a line still selects its offer. -/
theorem SameOffer.selectsOffer (h : l.SameOffer l') (hl : l.SelectsOffer) : l'.SelectsOffer where
  business s hs := by
    rw [h.offer]
    exact hl.business s (h.business ▸ hs)
  retail k hk := by
    rw [h.offer]
    exact hl.retail k (h.retail ▸ hk)
  one := by
    rw [h.business, h.retail]
    exact hl.one

/-- With its selections, a line still has one. -/
theorem SameOffer.hasSelection (h : l.SameOffer l') : l'.hasSelection = l.hasSelection := by
  unfold OrderLine.hasSelection
  rw [h.business, h.retail]

/-- A resized line has its offer. -/
theorem resize_sameOffer {q : ℤ} (h : l.resize q = .ok l') : l.SameOffer l' := by
  obtain ⟨hq, rfl⟩ := resize_eq_ok.mp h
  exact ⟨rfl, rfl, rfl⟩

end OrderLine

/-- A new line has no retail selection, unless it is one of a checkout. -/
theorem newOrderLine_unselected {order : Order} {line : ResolvedOrderLine} {x : NewOrderLine}
    (h : newOrderLine order line = .ok x) : x.retailOfferSelection = none := by
  unfold newOrderLine at h
  rw [bind_eq_ok] at h
  obtain ⟨-, -, h⟩ := h
  split at h
  · split at h
    · rw [pure_eq_ok] at h
      rw [← h]
    · cases h
  · cases h

/-- A line of a checkout selects its retail offer. -/
theorem newRetailOrderLine_selects {order : Order} {line : ResolvedRetailOrderLine}
    {x : NewOrderLine} (h : newRetailOrderLine order line = .ok x) :
    x.retailOfferSelection = some x.commercialOfferId := by
  unfold newRetailOrderLine at h
  simp only [bind_eq_ok, pure_eq_ok] at h
  obtain ⟨y, hy, rfl⟩ := h
  exact congrArg some (newOrderLine_of hy).offer.symm

/-- What a line is after a call: one that was there, or a new one. -/
inductive OrderLine.Traced (unselected : Prop) (t : Table OrderLine) (l' : OrderLine) : Prop where
  | kept {l : OrderLine} (mem : l ∈ t) (same : l.SameOffer l')
  | written (selects : l'.SelectsOffer) (selection : unselected ∨ l'.hasSelection = true)

/-- Each line afterwards is one from before, or selects its offer. -/
def LineWork (unselected : Prop) (db db' : Db) : Prop :=
  ∀ l' ∈ db'.lines, l'.Traced unselected db.lines

namespace LineWork

variable {unselected : Prop} {db db' db'' : Db}

/-- Nothing is written to the lines. -/
theorem ofLines (h : ∀ l ∈ db'.lines, l ∈ db.lines) : LineWork unselected db db' :=
  fun l hl => .kept (h l hl) (OrderLine.SameOffer.refl l)

/-- Doing nothing is work on no line. -/
theorem refl (db : Db) : LineWork unselected db db := ofLines (fun _ hl => hl)

/-- A line kept by the second step was kept or written by the first. -/
theorem trans (h : LineWork unselected db db') (h' : LineWork unselected db' db'') :
    LineWork unselected db db'' := by
  intro l'' hl''
  cases h' l'' hl'' with
  | written selects selection => exact .written selects selection
  | @kept l' mem same =>
    cases h l' mem with
    | kept hl hsame => exact .kept hl (hsame.trans same)
    | written selects selection =>
      exact .written (same.selectsOffer selects) (same.hasSelection ▸ selection)

/-- What may be written without a selection under `p` may be so under `q`. -/
theorem mono {p q : Prop} (hpq : p → q) (h : LineWork p db db') : LineWork q db db' := by
  intro l' hl'
  cases h l' hl' with
  | kept mem same => exact .kept mem same
  | written selects selection => exact .written selects (selection.imp_left hpq)

/-- The lines that were there select their offers still, and so do the new ones. -/
theorem selectsOffer (h : LineWork unselected db db') (hdb : ∀ l ∈ db.lines, l.SelectsOffer) :
    ∀ l ∈ db'.lines, l.SelectsOffer := by
  intro l' hl'
  cases h l' hl' with
  | kept mem same => exact same.selectsOffer (hdb _ mem)
  | written selects _ => exact selects

/-- When nothing is written without a selection, all lines keep having one. -/
theorem hasSelection (h : LineWork False db db') (hdb : ∀ l ∈ db.lines, l.hasSelection = true) :
    ∀ l ∈ db'.lines, l.hasSelection = true := by
  intro l' hl'
  cases h l' hl' with
  | kept mem same => exact same.hasSelection ▸ hdb _ mem
  | written _ selection => exact selection.resolve_left not_false

/-! ### The writes -/

/-- Deleting lines writes none. -/
theorem deleteLines (db : Db) (pks : List ℕ) : LineWork unselected db (db.deleteLines pks) :=
  ofLines (fun _ hl => (Table.mem_delete.mp hl).1)

/-- A line is rewritten with its offer. -/
theorem put {l l' : OrderLine} (hl : l ∈ db.lines) (hsame : l.SameOffer l') :
    LineWork unselected db { db with lines := db.lines.put l' } := by
  intro x hx
  rcases Table.of_mem_put hx with rfl | ⟨hx, -⟩
  · exact .kept hl hsame
  · exact .kept hx (OrderLine.SameOffer.refl x)

/-- Lines are inserted that select their offers. -/
theorem insertAll {xs : List NewOrderLine} (hxs : ∀ x ∈ xs, ∀ n,
      (x.row.make n).SelectsOffer ∧ (unselected ∨ (x.row.make n).hasSelection = true)) :
    LineWork unselected db
      { db with lines := db.lines.insertAll (xs.map NewOrderLine.row) } := by
  intro l hl
  rcases Table.mem_insertAll.mp hl with hl | hl
  · exact .kept hl (OrderLine.SameOffer.refl l)
  · obtain ⟨d, hd, n, rfl⟩ := Table.mem_made hl
    obtain ⟨x, hx, rfl⟩ := List.mem_map.mp hd
    exact .written (hxs x hx n).1 (hxs x hx n).2

/-- A line without selections selects nothing else than its offer. -/
theorem newLine {order : Order} {line : ResolvedOrderLine} {x : NewOrderLine}
    (h : newOrderLine order line = .ok x) (n : ℕ) : (x.row.make n).SelectsOffer where
  business s hs := by cases hs
  retail k hk := by
    have hk : x.retailOfferSelection = some k := hk
    rw [newOrderLine_unselected h] at hk
    cases hk
  one := Or.inl rfl

/-- The lines of a draft are written without a selection. -/
theorem createLines {o : Order} {lines : List ResolvedOrderLine}
    (h : createOrderLines db o lines = .ok db') : LineWork (lines ≠ []) db db' := by
  obtain ⟨xs, hxs, rfl⟩ := createOrderLines_made h
  refine insertAll (fun x hx n => ?_)
  obtain ⟨line, hline, hx⟩ := forall₂_right hxs x hx
  exact ⟨newLine hx n, Or.inl (List.ne_nil_of_mem hline)⟩

/-- Changing a draft line's quantity keeps its offer. -/
theorem setLine {k lineId : ℕ} {q : ℤ} (h : setDraftOrderLineQuantity db k lineId q = .ok db') :
    LineWork unselected db db' := by
  unfold setDraftOrderLineQuantity requireDraftForEdit at h
  simp only [lockedOrder_eq_ok, requireStatus_eq_ok, bind_eq_ok, pure_eq_ok] at h
  obtain ⟨o, -, -, -, -, -, l, hl, l', hl', rfl⟩ := h
  exact put (Db.mem_orderLines.mp (findOrderLine_eq_ok hl).1).1 (OrderLine.resize_sameOffer hl')

/-- What adding a draft line inserts. -/
theorem addLine_made {k : ℕ} {line : ResolvedOrderLine}
    (h : addDraftOrderLine db k line = .ok db') :
    ∃ o x, newOrderLine o line = .ok x ∧ db' = { db with lines := db.lines.insert x.row } := by
  unfold addDraftOrderLine requireDraftForEdit at h
  simp only [lockedOrder_eq_ok, requireStatus_eq_ok, bind_eq_ok, pure_eq_ok] at h
  obtain ⟨o, -, -, -, -, -, -, -, x, hx, rfl⟩ := h
  exact ⟨o, x, hx, rfl⟩

/-- A draft line is added without a selection. -/
theorem addLine {k : ℕ} {line : ResolvedOrderLine} (h : addDraftOrderLine db k line = .ok db') :
    LineWork True db db' := by
  obtain ⟨o, x, hx, rfl⟩ := addLine_made h
  intro l hl
  rcases Table.mem_insert.mp hl with hl | rfl
  · exact .kept hl (OrderLine.SameOffer.refl l)
  · exact .written (newLine hx _) (Or.inl trivial)

/-- The line that an addition from the catalog inserts selects the offer it is for. -/
theorem addOffer {o : Order} {product : Product} {offer : CatalogOffer} {k : ℕ} {quantity : ℤ}
    (h : Business.addOffer db o product offer k quantity = .ok db') :
    LineWork unselected db db' := by
  unfold Business.addOffer at h
  simp only [bind_eq_ok, require_eq_ok, exists_const] at h
  obtain ⟨-, -, -, h⟩ := h
  -- The offer's line is resized if the draft has one; otherwise a line is added and selects the
  -- offer.
  cases hfind : Business.findLineForOffer db o product k with
  | some line =>
    simp only [hfind] at h
    exact setLine h
  | none =>
    simp only [hfind, bind_eq_ok, pure_eq_ok] at h
    obtain ⟨commercialOffer, hcommercial, db₁, hadd, rfl⟩ := h
    obtain ⟨-, hpk⟩ := Db.getCommercialPrice_eq_ok.mp hcommercial
    obtain ⟨o', x, hx, rfl⟩ := addLine_made hadd
    have htable : (db.lines.insert x.row).modify (fun l => l.pk = db.lines.next)
        (Business.selectBusinessOffer offer.commercialPriceId)
        = db.lines.insert (Business.explicitRow x offer.commercialPriceId) :=
      Table.modify_insert_next _ _ _ _ (fun l => decide_eq_true_iff)
    have hoffer : offer.commercialPriceId = x.commercialOfferId :=
      hpk.symm.trans (newOrderLine_of hx).offer.symm
    rw [htable]
    intro l hl
    rcases Table.mem_insert.mp hl with hl | rfl
    · exact .kept hl (OrderLine.SameOffer.refl l)
    · refine .written ⟨fun s hs => ?_, (newLine hx db.lines.next).retail,
        Or.inr (newOrderLine_unselected hx)⟩ (Or.inr rfl)
      have hs : some (some offer.commercialPriceId) = some s := hs
      rw [← Option.some.inj hs, hoffer]
      rfl

/-- Saving the lines that stay, with other quantities. -/
theorem putAll {ls : List OrderLine} (h : ∀ l' ∈ ls, ∃ l ∈ db.lines, l.SameOffer l') :
    LineWork unselected db { db with lines := ls.foldl Table.put db.lines } := by
  intro x hx
  rcases Table.of_mem_foldl_put hx with hx | hx
  · obtain ⟨l, hl, hsame⟩ := h x hx
    exact .kept hl hsame
  · exact .kept hx (OrderLine.SameOffer.refl x)

/-- Diffing lines by offer inserts the lines for new offers, without selections. -/
theorem replaceLines {o : Order} {lines : List ResolvedOrderLine}
    (h : SwedeSweets.replaceLines db o (lines.map (fun line => (line.commercialOffer.pk, line)))
      ((db.orderLines o.pk).map (fun l => (l.commercialOfferId, l))) = .ok db') :
    LineWork (addedLines db o.pk lines ≠ []) db db' := by
  obtain ⟨retained, hret, hcreate⟩ := replaceLines_eq_ok_iff.mp h
  have hput : LineWork (addedLines db o.pk lines ≠ []) db
      { db with lines := retained.foldl Table.put db.lines } := by
    refine putAll (fun l' hl' => ?_)
    obtain ⟨e, he, hresize⟩ := exists_of_mem_mapM hret hl'
    exact ⟨e.1, (Db.mem_orderLines.mp (orderLine_of_retained he)).1,
      OrderLine.resize_sameOffer hresize⟩
  exact (hput.trans (deleteLines _ _)).trans (createLines hcreate)

/-- A draft is created with lines that have no selection. -/
theorem createDraft {rt : Runtime} {draft : OrderDraft} {r : Db × Order}
    (h : SwedeSweets.createDraftOrder rt db draft = .ok r) : LineWork True db r.1 := by
  unfold SwedeSweets.createDraftOrder at h
  simp only [bind_eq_ok, require_eq_ok, exists_const, pure_eq_ok] at h
  obtain ⟨-, ⟨db₁, o⟩, hinsert, db₂, hcreate, rfl⟩ := h
  obtain ⟨rfl, rfl⟩ := Prod.mk.inj (Inv.insertOrder_eq_ok hinsert)
  exact (ofLines (fun _ hl => hl)).trans ((createLines hcreate).mono (fun _ => trivial))

/-- Opening a draft writes no line. -/
theorem openDraft {rt : Runtime} {customer : ℕ} {r : Db × Order}
    (h : Business.getOrCreateCustomerDraftOrder rt db customer = .ok r) :
    LineWork unselected db r.1 := by
  obtain ⟨-, -, hdb | ⟨-, hdb⟩⟩ := Business.getOrCreateDraft_eq_ok h
  · rw [hdb]
    exact refl db
  · rw [hdb]
    exact ofLines (fun _ hl => hl)

/-- Reserving and placing leave the lines alone. -/
theorem place {rt : Runtime} {k : ℕ} {user : Option ℕ}
    (h : Business.placeOrder rt db k user = .ok db') : LineWork unselected db db' := by
  obtain ⟨o, -, -, -, db₁, hprep, rfl⟩ := placeOrder_eq_ok.mp h
  obtain ⟨-, -, xs, rfl, -⟩ := Inv.prepareBusiness_eq_ok hprep
  exact ofLines (fun _ hl => hl)

/-- An edit writes lines without a selection only for offers the order did not have. -/
theorem updatePlaced {rt : Runtime} {k : ℕ} {lines : List ResolvedOrderLine} {user : Option ℕ}
    (h : SwedeSweets.updatePlacedOrder rt db k lines clearOrderReservationsBeforeLineReplacement
      (prepareBusinessOrderForPlacement rt) user = .ok db') :
    LineWork (addedLines db k lines ≠ []) db db' := by
  obtain ⟨o, -, rfl, -, incoming, existing, hin, hex, db₁, db₂, db₃, hclear, hrep, hprep, rfl⟩ :=
    updatePlacedOrder_eq_ok h
  simp only [clearOrderReservationsBeforeLineReplacement, pure_eq_ok] at hclear
  subst hclear
  rw [(incomingByOfferId_eq_ok.mp hin).2.2, Inv.existingByOfferId_eq_ok hex] at hrep
  obtain ⟨-, -, xs, rfl, -⟩ := Inv.prepareBusiness_eq_ok hprep
  -- clearing the reservations of the order leaves its lines as they are
  have hreplaced : LineWork (addedLines db o.pk lines ≠ []) (deleteReservationsForOrder db o.pk)
      db₂ := @replaceLines (deleteReservationsForOrder db o.pk) _ _ _ hrep
  have hcleared : LineWork (addedLines db o.pk lines ≠ []) db db₂ :=
    (ofLines (fun _ hl => hl)).trans hreplaced
  exact hcleared.trans (ofLines (fun _ hl => hl))

/-- A discarded draft loses its lines. -/
theorem discardDraft {k : ℕ} (h : Business.discardDraftOrder db k = .ok db') :
    LineWork unselected db db' := by
  unfold Business.discardDraftOrder SwedeSweets.discardDraftOrder requireDraftForDiscard
    requireOrderWithoutReservationsBeforeDiscard at h
  simp only [lockedOrder_eq_ok, requireStatus_eq_ok, bind_eq_ok, require_eq_ok, exists_const,
    pure_eq_ok] at h
  obtain ⟨o, -, rfl, -, db₁, ⟨-, rfl⟩, rfl⟩ := h
  exact ofLines (fun _ hl => (Table.mem_delete.mp hl).1)

/-- A checkout inserts lines with retail selections. -/
theorem checkout {rt : Runtime} {buyer : AnonymousBuyerInput} {lines : List RetailOrderLineInput}
    (h : createPendingRetailOrder rt db buyer lines = .ok db') : LineWork unselected db db' := by
  obtain ⟨resolved, -, rows, hrows, rfl⟩ := createPendingRetailOrder_eq_ok.mp h
  refine insertAll (fun x hx n => ?_)
  obtain ⟨line, -, hx⟩ := forall₂_right (forall₂_of_mapM hrows) x hx
  have hselects : (x.row.make n).retailOfferSelection = some x.commercialOfferId :=
    newRetailOrderLine_selects hx
  refine ⟨⟨fun s hs => (by cases hs), fun k hk => ?_, Or.inl rfl⟩, Or.inr ?_⟩
  · rw [hselects] at hk
    exact (Option.some.inj hk).symm
  · unfold OrderLine.hasSelection
    rw [hselects]
    rfl

end LineWork

end SwedeSweets
