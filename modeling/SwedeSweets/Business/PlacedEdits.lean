import SwedeSweets.Business.Edits

namespace SwedeSweets

open Relational Fallible

/-!
# Editing a placed business order

An edit deletes the reservations of the order, replaces its lines and reserves them anew.

* `updatePlacedOrder_rebuilt` — what an edit that goes through leaves;
* `updatePlacedOrder_returns` — when it goes through;
* `updatePlacedOrder_perm`, `Rebuilt.entries` — the order in which the lines are asked for
  decides neither whether it goes through nor what is reserved.
-/

section

variable {rt : Runtime} {db db' : Db} {k : ℕ} {lines : List ResolvedOrderLine} {user : Option ℕ}

/-- The database without the reservations that the edit gives up. -/
def Db.cleared (db : Db) (k : ℕ) (lines : List ResolvedOrderLine) : Db :=
  (deleteReservationsForOrder db k).deleteLines (removedLineIds db k lines)

/-- What an edit leaves of the allocations was there before, and is no reservation of the
    order. -/
theorem Edited.old {db₂ : Db} (h : Edited k lines (deleteReservationsForOrder db k) db₂)
    {a : Allocation} (ha : a ∈ db₂.allocations) : a ∈ db.allocations ∧ reservedOf k a = false := by
  rw [h.allocations] at ha
  exact Table.mem_delete.mp (Table.mem_delete.mp ha).1

/-- What an edit of a placed business order does: it clears the reservations, replaces the
    lines and gives each line the shares its pool then has for it. -/
structure Rebuilt (rt : Runtime) (k : ℕ) (lines : List ResolvedOrderLine) (db db₂ : Db)
    (offer : OrderLine → CommercialPrice) (xs : List NewAllocation) : Prop where
  known : ((db.orderLines k).map OrderLine.commercialOfferId).Nodup
  asked : (lines.map (fun line => line.commercialOffer.pk)).Nodup
  edited : Edited k lines (deleteReservationsForOrder db k) db₂
  servable : ∀ l ∈ db₂.orderLines k, Servable db₂ l (offer l)
  own : FromOwnPools rt db₂ offer (db₂.orderLines k) xs
  covers : Covers .reserved (db₂.orderLines k) ((db₂.withReservations xs).orderAllocations k)

/-- An edit that goes through has rebuilt the order. -/
theorem updatePlacedOrder_rebuilt (hc : OfferConstraints db)
    (h : SwedeSweets.updatePlacedOrder rt db k lines clearOrderReservationsBeforeLineReplacement
      (prepareBusinessOrderForPlacement rt) user = .ok db') :
    ∃ o ∈ db.orders, o.pk = k ∧ o.status = .placed ∧ ∃ db₂ offer xs,
      Rebuilt rt k lines db db₂ offer xs
        ∧ db' = (db₂.withReservations xs).saveOrder (o.markAsEdited rt user) := by
  obtain ⟨o, ho, rfl, hst, incoming, existing, hin, hex, db₁, db₂, db₃, hclear, hrep, hprep, rfl⟩ :=
    updatePlacedOrder_eq_ok h
  simp only [clearOrderReservationsBeforeLineReplacement, pure_eq_ok] at hclear
  subst hclear
  have hknown := existingByOfferId_returns.mp ⟨existing, hex⟩
  obtain ⟨-, hasked, rfl⟩ := incomingByOfferId_eq_ok.mp hin
  rw [Inv.existingByOfferId_eq_ok hex] at hrep
  have hedited : Edited o.pk lines (deleteReservationsForOrder db o.pk) db₂ :=
    replaceLines_edited hknown hasked hrep
  -- nothing of what was there before covers a line
  have hcleared : Without .reserved (db₂.orderAllocations o.pk) := by
    intro a ha hstatus
    obtain ⟨hmem, horder⟩ := Db.mem_orderAllocations.mp ha
    have hold := (hedited.old hmem).2
    rw [reservedOf_iff.mpr ⟨horder, hstatus⟩] at hold
    cases hold
  obtain ⟨-, -, ys, hys, hreserved⟩ := Inv.prepareBusiness_eq_ok hprep
  unfold prepareBusinessOrderForPlacement at hprep
  simp only [bind_eq_ok, require_eq_ok, exists_const] at hprep
  obtain ⟨-, -, hloop⟩ := hprep
  have hc₂ : OfferConstraints db₂ := hc.frame hedited.prices hedited.batches
  obtain ⟨offer, hoffer⟩ := exists_offers (servable_of_loop hloop)
  obtain ⟨xs, rfl, hown⟩ := reserveBusinessLines_own hc₂ hoffer hedited.distinct hloop
  refine ⟨o, ho, rfl, hst, db₂, offer, xs, ⟨hknown, hasked, hedited, hoffer, hown, ?_⟩, rfl⟩
  intro l hl
  rw [hys, orderAllocations_withReservations
    (fun y hy => (Db.mem_orderLines.mp (hreserved.ofLines y hy).1).2), unitsOf_append,
    unitsOf_eq_zero hcleared, unitsOf_rowsOf, Nat.zero_add]
  exact hreserved.exact l hl

/-- The table admits the quantity of each line that was asked for. -/
theorem quantity_of_updatePlacedOrder
    (h : SwedeSweets.updatePlacedOrder rt db k lines clearOrderReservationsBeforeLineReplacement
      (prepareBusinessOrderForPlacement rt) user = .ok db') {line : ResolvedOrderLine}
    (hline : line ∈ lines) : LineQuantity line.quantityInUnits := by
  obtain ⟨o, -, rfl, -, incoming, existing, hin, hex, db₁, db₂, -, hclear, hrep, -, -⟩ :=
    updatePlacedOrder_eq_ok h
  simp only [clearOrderReservationsBeforeLineReplacement, pure_eq_ok] at hclear
  subst hclear
  obtain ⟨-, -, rfl⟩ := incomingByOfferId_eq_ok.mp hin
  rw [Inv.existingByOfferId_eq_ok hex] at hrep
  have hknown : (((deleteReservationsForOrder db o.pk).orderLines o.pk).map
      OrderLine.commercialOfferId).Nodup := existingByOfferId_returns.mp ⟨existing, hex⟩
  exact quantity_of_replaceLines hknown hrep hline

/-- The shares an edit gives are those of the cleared database. -/
theorem Rebuilt.share {db₂ : Db} {offer : OrderLine → CommercialPrice} {xs : List NewAllocation}
    (h : Rebuilt rt k lines db db₂ offer xs) (o : CommercialPrice) (quantity : ℕ)
    {b : InventoryBatch} (hb : b ∈ db.batches) :
    db₂.fefoShare rt.now (listOrderableBatchesForOffer rt db₂ o .eur) quantity b
      = (db.cleared k lines).fefoShare rt.now (listOrderableBatchesForOffer rt db o .eur)
          quantity b := by
  -- neither the pool nor the stock nor the other reservations changed with the lines
  have hpool : listOrderableBatchesForOffer rt db₂ o .eur
      = listOrderableBatchesForOffer rt db o .eur :=
    listOrderableBatchesForOffer_congr h.edited.products h.edited.prices rt o .eur
  have hallocs : db₂.allocations = (db.cleared k lines).allocations := h.edited.allocations
  have hbatches : db₂.batches = (db.cleared k lines).batches := h.edited.batches
  rw [hpool]
  refine fefoShare_congr hbatches (fun c _ _ => ?_) quantity hb
  show c.quantity - db₂.allocations.total _ = _
  rw [hallocs]
  rfl

/-- What is asked for under an offer that may be sold. -/
structure OfferLine (db : Db) (line : ResolvedOrderLine) : Prop where
  known : line.commercialOffer ∈ db.commercialPrices
  product : line.commercialOffer.productId = line.product.pk
  channel : line.commercialOffer.channel = .business
  sellable : line.commercialOffer.Sellable db
  quantity : 0 < line.quantityInUnits
  price : ∀ c ∈ line.unitPriceSnapshot, 0 < c

/-- The table admits it when the column of the quantity does. -/
theorem OfferLine.storable {line : ResolvedOrderLine} (h : OfferLine db line)
    (hcolumn : line.quantityInUnits < 10 ^ quantityDigits) : line.Storable :=
  ⟨⟨h.quantity, hcolumn⟩, h.price⟩

/-- After an edit a line may be reserved from the pool of the offer that was asked for. -/
theorem Edited.servable {db₂ : Db} (h : Edited k lines (deleteReservationsForOrder db k) db₂)
    (hlines : ∀ line ∈ lines, OfferLine db line)
    (hproduct : ∀ l ∈ db.orderLines k, ∀ line ∈ lines,
      line.commercialOffer.pk = l.commercialOfferId → line.commercialOffer.productId = l.productId)
    {l' : OrderLine} (hl' : l' ∈ db₂.orderLines k) :
    ∃ line ∈ lines, Servable db₂ l' line.commercialOffer
      ∧ l'.quantityInUnits = line.quantityInUnits.toNat := by
  obtain ⟨line, hline, hoffer, hq, hold⟩ := h.line l' hl'
  have hl := hlines line hline
  -- the line is a version of an old one, or a new one
  have hserv : Servable db l' line.commercialOffer := by
    refine ⟨hl.known, hoffer.symm, ?_, hl.channel, hl.sellable⟩
    rcases hold with ⟨l, hmem, hsame⟩ | ⟨-, hnew, -⟩
    · have hlk : line.commercialOffer.pk = l.commercialOfferId := hoffer.symm.trans hsame.offer
      exact (hproduct l hmem line hline hlk).trans hsame.product.symm
    · exact hl.product.trans hnew.symm
  exact ⟨line, hline, hserv.frame h.products h.prices, hq⟩

/-- An edit goes through when the lines can be replaced and those it leaves fit the free units of
    their pools. -/
theorem updatePlacedOrder_of {o : Order} {db₂ : Db} {offer : OrderLine → CommercialPrice}
    (hc : OfferConstraints db) (ho : o ∈ db.orders) (hst : o.status = .placed)
    (hch : o.channel = .business) (hne : lines ≠ [])
    (hknown : ((db.orderLines o.pk).map OrderLine.commercialOfferId).Nodup)
    (hin : incomingByOfferId o lines
      = .ok (lines.map (fun line => (line.commercialOffer.pk, line))))
    (hrep : replaceLines (deleteReservationsForOrder db o.pk) o
      (lines.map (fun line => (line.commercialOffer.pk, line)))
      ((db.orderLines o.pk).map (fun l => (l.commercialOfferId, l))) = .ok db₂)
    (hoffer : ∀ l ∈ db₂.orderLines o.pk, Servable db₂ l (offer l))
    (hfits : ∀ l ∈ db₂.orderLines o.pk, l.quantityInUnits
      ≤ db₂.poolCapacity rt.now (listOrderableBatchesForOffer rt db₂ (offer l) .eur)) :
    ∃ db', SwedeSweets.updatePlacedOrder rt db o.pk lines clearOrderReservationsBeforeLineReplacement
      (prepareBusinessOrderForPlacement rt) user = .ok db' := by
  obtain ⟨-, hasked, -⟩ := incomingByOfferId_eq_ok.mp hin
  obtain ⟨existing, hexisting⟩ := existingByOfferId_returns.mpr hknown
  have hedited : Edited o.pk lines (deleteReservationsForOrder db o.pk) db₂ :=
    replaceLines_edited hknown hasked hrep
  have hc₂ : OfferConstraints db₂ := hc.frame hedited.prices hedited.batches
  -- every line of the edited order is reserved from its own pool
  obtain ⟨db₃, hreserve⟩ := (reserveBusinessLines_returns hc₂ hoffer hedited.distinct).mpr hfits
  have hlines₂ : db₂.orderLines o.pk ≠ [] := by
    obtain ⟨line, hline⟩ := List.exists_mem_of_ne_nil _ hne
    obtain ⟨l', hl', -⟩ := hedited.served line hline
    exact List.ne_nil_of_mem hl'
  have hprepare : prepareBusinessOrderForPlacement rt db₂ o = .ok db₃ := by
    unfold prepareBusinessOrderForPlacement
    simp only [bind_eq_ok, require_eq_ok, exists_const]
    exact ⟨hch, hlines₂, hreserve⟩
  unfold SwedeSweets.updatePlacedOrder requirePlacedForEdit
  simp only [lockedOrder_eq_ok, requireStatus_eq_ok, bind_eq_ok, require_eq_ok, exists_const,
    pure_eq_ok]
  exact ⟨_, o, ho, rfl, hst, hne, _, hin, existing, hexisting, _, rfl, db₂,
    Inv.existingByOfferId_eq_ok hexisting ▸ hrep, db₃, hprepare, rfl⟩

/-- **When an edit goes through.** The lines asked for are for distinct offers, the lines there
    are as well, and each line asked for fits its column and the units its pool has free once
    the reservations of the order are deleted. -/
theorem updatePlacedOrder_returns (hc : OfferConstraints db) {o : Order} (ho : o ∈ db.orders)
    (hst : o.status = .placed) (hch : o.channel = .business)
    (hex : ((db.orderLines o.pk).map OrderLine.commercialOfferId).Nodup)
    (hne : lines ≠ []) (hlines : ∀ line ∈ lines, OfferLine db line)
    (hcolumn : ∀ line ∈ lines, line.quantityInUnits < 10 ^ quantityDigits)
    (hasked : (lines.map (fun line => line.commercialOffer.pk)).Nodup)
    (hproduct : ∀ l ∈ db.orderLines o.pk, ∀ line ∈ lines,
      line.commercialOffer.pk = l.commercialOfferId → line.commercialOffer.productId = l.productId)
    (hfits : ∀ line ∈ lines, line.quantityInUnits
      ≤ (deleteReservationsForOrder db o.pk).poolCapacity rt.now
          (listOrderableBatchesForOffer rt db line.commercialOffer .eur)) :
    ∃ db', SwedeSweets.updatePlacedOrder rt db o.pk lines clearOrderReservationsBeforeLineReplacement
      (prepareBusinessOrderForPlacement rt) user = .ok db' := by
  have hvalid : ∀ line ∈ lines, line.commercialOffer.productId = line.product.pk
      ∧ line.commercialOffer.channel = o.channel :=
    fun line hline => ⟨(hlines line hline).product, (hlines line hline).channel.trans hch.symm⟩
  have hin := incomingByOfferId_eq_ok.mpr ⟨hvalid, hasked, rfl⟩
  obtain ⟨db₂, hrep⟩ : ∃ db₂, replaceLines (deleteReservationsForOrder db o.pk) o
      (lines.map (fun line => (line.commercialOffer.pk, line)))
      ((db.orderLines o.pk).map (fun l => (l.commercialOfferId, l))) = .ok db₂ :=
    replaceLines_returns hex hvalid
      (fun line hline => (hlines line hline).storable (hcolumn line hline))
  have hedited : Edited o.pk lines (deleteReservationsForOrder db o.pk) db₂ :=
    replaceLines_edited hex hasked hrep
  -- the pools are what they were, with the units of removed lines free as well
  have hpool : ∀ offer, listOrderableBatchesForOffer rt db₂ offer .eur
      = listOrderableBatchesForOffer rt db offer .eur := fun offer =>
    listOrderableBatchesForOffer_congr hedited.products hedited.prices rt offer .eur
  have hcap : ∀ batches, (deleteReservationsForOrder db o.pk).poolCapacity rt.now batches
      ≤ db₂.poolCapacity rt.now batches :=
    poolCapacity_mono hedited.batches (activeReserved_delete rt.now hedited.allocations)
  have hserved : ∀ l' ∈ db₂.orderLines o.pk, ∃ offer, Servable db₂ l' offer := by
    intro l' hl'
    obtain ⟨line, -, hserv, -⟩ := hedited.servable hlines hproduct hl'
    exact ⟨_, hserv⟩
  obtain ⟨offer, hoffer⟩ := exists_offers hserved
  refine updatePlacedOrder_of hc ho hst hch hne hex hin hrep hoffer (fun l' hl' => ?_)
  obtain ⟨line, hline, hserv, hq⟩ := hedited.servable hlines hproduct hl'
  rw [(hoffer l' hl').unique hserv, hpool, hq]
  have hfit := hfits line hline
  have hle := hcap (listOrderableBatchesForOffer rt db line.commercialOffer .eur)
  omega

/-! ### In another order -/

variable {lines' : List ResolvedOrderLine} {db₂ db₂' : Db} {offer offer' : OrderLine → CommercialPrice}
  {xs xs' : List NewAllocation}

/-- A line may be reserved like one it is alike to. -/
theorem Servable.alike {l l' : OrderLine} {o : CommercialPrice} (h : Servable db l o)
    (hl : l.Alike l') : Servable db l' o :=
  ⟨h.mem, h.offer.trans hl.offer.symm, h.product.trans hl.product.symm, h.channel, h.sellable⟩

/-- Pools have as many free units after one edit as after the other. -/
theorem Edited.poolCapacity (h : Edited k lines (deleteReservationsForOrder db k) db₂)
    (h' : Edited k lines' (deleteReservationsForOrder db k) db₂') (hperm : lines'.Perm lines)
    (rt : Runtime) (o : CommercialPrice) :
    db₂'.poolCapacity rt.now (listOrderableBatchesForOffer rt db₂' o .eur)
      = db₂.poolCapacity rt.now (listOrderableBatchesForOffer rt db₂ o .eur) := by
  have hproducts : db₂'.products = db₂.products := h'.products.trans h.products.symm
  have hprices : db₂'.commercialPrices = db₂.commercialPrices := h'.prices.trans h.prices.symm
  have hbatches : db₂'.batches = db₂.batches := h'.batches.trans h.batches.symm
  -- the same lines are removed in either order
  have hallocs : db₂'.allocations = db₂.allocations := by
    rw [h'.allocations, h.allocations, removedLineIds_perm k hperm]
  rw [listOrderableBatchesForOffer_congr hproducts hprices]
  refine poolCapacity_congr hbatches (fun b _ _ => ?_)
  unfold Db.freeUnits Db.activeReserved
  rw [hallocs]

/-- **Order of the input.** An edit that goes through does so in whatever order the lines are
    asked for. -/
theorem updatePlacedOrder_perm (hc : OfferConstraints db) (hperm : lines'.Perm lines)
    (h : SwedeSweets.updatePlacedOrder rt db k lines clearOrderReservationsBeforeLineReplacement
      (prepareBusinessOrderForPlacement rt) user = .ok db') :
    ∃ db'', SwedeSweets.updatePlacedOrder rt db k lines' clearOrderReservationsBeforeLineReplacement
      (prepareBusinessOrderForPlacement rt) user = .ok db'' := by
  obtain ⟨o, ho, rfl, hst, incoming, existing, hin, hex, db₁, db₂, db₃, hclear, hrep, hprep, -⟩ :=
    updatePlacedOrder_eq_ok h
  simp only [clearOrderReservationsBeforeLineReplacement, pure_eq_ok] at hclear
  subst hclear
  have hknown := existingByOfferId_returns.mp ⟨existing, hex⟩
  obtain ⟨hvalid, hasked, rfl⟩ := incomingByOfferId_eq_ok.mp hin
  rw [Inv.existingByOfferId_eq_ok hex] at hrep
  unfold prepareBusinessOrderForPlacement at hprep
  simp only [bind_eq_ok, require_eq_ok, exists_const] at hprep
  obtain ⟨hch, hne, hloop⟩ := hprep
  have hedited : Edited o.pk lines (deleteReservationsForOrder db o.pk) db₂ :=
    replaceLines_edited hknown hasked hrep
  have hasked' : (lines'.map (fun line => line.commercialOffer.pk)).Nodup :=
    (hperm.map _).nodup_iff.mpr hasked
  obtain ⟨db₂', hrep'⟩ : ∃ db₂', replaceLines (deleteReservationsForOrder db o.pk) o
      (lines'.map (fun line => (line.commercialOffer.pk, line)))
      ((db.orderLines o.pk).map (fun l => (l.commercialOfferId, l))) = .ok db₂' :=
    replaceLines_perm hperm hrep
  have hedited' : Edited o.pk lines' (deleteReservationsForOrder db o.pk) db₂' :=
    replaceLines_edited hknown hasked' hrep'
  -- each line has its like among those that were reserved
  have hc₂ : OfferConstraints db₂ := hc.frame hedited.prices hedited.batches
  obtain ⟨offer, hoffer⟩ := exists_offers (servable_of_loop hloop)
  have hfits := (reserveBusinessLines_returns hc₂ hoffer hedited.distinct).mp ⟨db₃, hloop⟩
  have hlike : ∀ l' ∈ db₂'.orderLines o.pk, ∃ l ∈ db₂.orderLines o.pk,
      l'.quantityInUnits = l.quantityInUnits ∧ Servable db₂' l' (offer l) := by
    intro l' hl'
    obtain ⟨l, hl, halike⟩ := hedited'.alike hedited hperm.symm hknown hasked' hl'
    have hserv : Servable db₂' l (offer l) := (hoffer l hl).frame
      (hedited'.products.trans hedited.products.symm) (hedited'.prices.trans hedited.prices.symm)
    exact ⟨l, hl, halike.quantity.symm, hserv.alike
      ⟨halike.offer.symm, halike.product.symm, halike.quantity.symm, halike.price.symm⟩⟩
  obtain ⟨offer', hoffer'⟩ := exists_offers (fun l' hl' => by
    obtain ⟨l, -, -, hserv⟩ := hlike l' hl'
    exact ⟨_, hserv⟩)
  have hne' : lines' ≠ [] := by
    rintro rfl
    obtain ⟨l, hl⟩ := List.exists_mem_of_ne_nil _ hne
    obtain ⟨line, hline, -⟩ := hedited.line l hl
    exact List.not_mem_nil (hperm.mem_iff.mpr hline)
  refine updatePlacedOrder_of hc ho hst hch hne' hknown (incomingByOfferId_eq_ok.mpr
    ⟨fun line hline => hvalid line (hperm.mem_iff.mp hline), hasked', rfl⟩) hrep' hoffer'
    (fun l' hl' => ?_)
  obtain ⟨l, hl, hq, hserv⟩ := hlike l' hl'
  rw [(hoffer' l' hl').unique hserv, hq, hedited.poolCapacity hedited' hperm rt]
  exact hfits l hl

/-- What a row reserves: for which offer, from which batch, how many units. -/
def NewAllocation.entry (x : NewAllocation) : ℕ × ℕ × ℕ :=
  (x.line.commercialOfferId, x.batchPk, x.quantity)

/-- What one edit reserves the other reserves as well. -/
theorem Rebuilt.entry_mem (h : Rebuilt rt k lines db db₂ offer xs)
    (h' : Rebuilt rt k lines' db db₂' offer' xs') (hperm : lines'.Perm lines) {x : NewAllocation}
    (hx : x ∈ xs) : x.entry ∈ xs'.map NewAllocation.entry := by
  obtain ⟨hline, -, b, hb, hbx, -, hshare⟩ := h.own.own x hx
  obtain ⟨l', hl', halike⟩ := h.edited.alike h'.edited hperm h.known h.asked hline
  have hb : b ∈ db.batches := h.edited.batches ▸ hb
  have hb' : b ∈ db₂'.batches := h'.edited.batches ▸ hb
  -- the two lines are served by one offer
  have hserv : Servable db x.line (offer x.line) :=
    (h.servable x.line hline).frame h.edited.products.symm h.edited.prices.symm
  have hserv' : Servable db l' (offer' l') :=
    (h'.servable l' hl').frame h'.edited.products.symm h'.edited.prices.symm
  have hoffer : offer' l' = offer x.line := hserv'.unique (hserv.alike halike)
  have hcleared : db.cleared k lines' = db.cleared k lines :=
    congrArg (Db.deleteLines (deleteReservationsForOrder db k)) (removedLineIds_perm k hperm)
  have hsame : db₂'.fefoShare rt.now (listOrderableBatchesForOffer rt db₂' (offer' l') .eur)
      l'.quantityInUnits b = x.quantity := by
    rw [h'.share _ _ hb, hoffer, halike.quantity, hcleared, ← h.share _ _ hb, ← hshare]
  have hpos := x.quantity_pos
  obtain ⟨x', hx', hline', hbx', hshare'⟩ := h'.own.all l' hl' b hb' (by omega)
  refine List.mem_map.mpr ⟨x', hx', ?_⟩
  unfold NewAllocation.entry
  rw [hline', halike.offer, hbx', hbx, hshare', hsame]

/-- **Reservations.** Both edits reserve the same units of the same batches for each offer. -/
theorem Rebuilt.entries (h : Rebuilt rt k lines db db₂ offer xs)
    (h' : Rebuilt rt k lines' db db₂' offer' xs') (hperm : lines'.Perm lines) :
    (xs.map NewAllocation.entry).Perm (xs'.map NewAllocation.entry) := by
  -- a line reserves from a batch once, so the entries can be compared as sets
  have hnodup : ∀ {ys : List NewAllocation},
      (ys.map (fun x => (x.line.commercialOfferId, x.batchPk))).Nodup →
        (ys.map NewAllocation.entry).Nodup := by
    intro ys hys
    refine List.Nodup.of_map (fun e => (e.1, e.2.1)) ?_
    rw [List.map_map]
    exact hys
  refine (List.perm_ext_iff_of_nodup (hnodup h.own.single) (hnodup h'.own.single)).mpr
    (fun e => ⟨fun he => ?_, fun he => ?_⟩)
  · obtain ⟨x, hx, rfl⟩ := List.mem_map.mp he
    exact h.entry_mem h' hperm hx
  · obtain ⟨x, hx, rfl⟩ := List.mem_map.mp he
    exact h'.entry_mem h hperm.symm hx

end

end SwedeSweets
