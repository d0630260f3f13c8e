import SwedeSweets.Business.PlacedEdits
import SwedeSweets.Guarantees.DraftPlacement

namespace SwedeSweets

open Relational Fallible

/-!
# What an edit makes of a placed order

* `ExactDiff` — the lines of the order are those asked for, each line there was for an offer
  asked for again is still that line at its old price, and every line is reserved exactly from
  the pool of its own offer;
* `SameOrder` — two outcomes that differ in the ids of lines at most;
* `placed_edit_exact` — an edit that goes through leaves an exact diff, and the same order in
  whatever order its lines are asked for; an edit that does not go through leaves everything as
  it was.
-/

variable {rt : Runtime} {db db' db₂ db₂' : Db} {k : ℕ} {lines lines' : List ResolvedOrderLine}
  {user : Option ℕ} {offer offer' : OrderLine → CommercialPrice} {xs xs' : List NewAllocation}

/-- The edit of a business order with lines that are resolved. -/
def updatePlacedBusinessOrder (rt : Runtime) (db : Db) (orderPk : ℕ) (lines : List ResolvedOrderLine)
    (user : Option ℕ) : Result Db :=
  updatePlacedOrder rt db orderPk lines clearOrderReservationsBeforeLineReplacement
    (prepareBusinessOrderForPlacement rt) user

/-! ### The diff -/

/-- What an edit of the order `k` makes of the database. -/
structure ExactDiff (rt : Runtime) (k : ℕ) (lines : List ResolvedOrderLine) (db db' : Db) : Prop where
  /-- One line for each offer asked for, with the units asked for. -/
  matched : ((db'.orderLines k).map (fun l => (l.commercialOfferId, (l.quantityInUnits : ℤ)))).Perm
    (lines.map (fun line => (line.commercialOffer.pk, line.quantityInUnits)))
  distinct : ((db'.orderLines k).map OrderLine.commercialOfferId).Nodup
  /-- A line whose offer is asked for again stays that line, at its old price. -/
  retained : ∀ l ∈ db.orderLines k, (∃ line ∈ lines, line.commercialOffer.pk = l.commercialOfferId) →
    ∃ l' ∈ db'.orderLines k, l'.pk = l.pk ∧ l'.commercialOfferId = l.commercialOfferId
      ∧ l'.productId = l.productId ∧ l'.unitPriceSnapshot = l.unitPriceSnapshot
  /-- No line is left for an offer that is not asked for. -/
  removed : ∀ l' ∈ db'.orderLines k, ∃ line ∈ lines, line.commercialOffer.pk = l'.commercialOfferId
  /-- A line for a new offer is a new one, of the product and at the price asked for. -/
  added : ∀ line ∈ lines, (∀ l ∈ db.orderLines k, l.commercialOfferId ≠ line.commercialOffer.pk) →
    ∃ l' ∈ db'.orderLines k, db.lines.next ≤ l'.pk ∧ l'.commercialOfferId = line.commercialOffer.pk
      ∧ l'.productId = line.product.pk ∧ l'.unitPriceSnapshot = line.unitPriceSnapshot
  covers : Covers .reserved (db'.orderLines k) (db'.orderAllocations k)
  ownPools : ∀ a ∈ db'.orderAllocations k, a.status = .reserved → InOwnPool rt db' a

/-- The units asked for are the units of the lines. -/
theorem Edited.matched {db db' : Db} (h : Edited k lines db db')
    (hasked : (lines.map (fun line => line.commercialOffer.pk)).Nodup) :
    ((db'.orderLines k).map (fun l => (l.commercialOfferId, (l.quantityInUnits : ℤ)))).Perm
      (lines.map (fun line => (line.commercialOffer.pk, line.quantityInUnits))) := by
  have hleft : ((db'.orderLines k).map
      (fun l => (l.commercialOfferId, (l.quantityInUnits : ℤ)))).Nodup :=
    List.Nodup.of_map Prod.fst (by rw [List.map_map]; exact h.distinct)
  have hright : (lines.map (fun line => (line.commercialOffer.pk, line.quantityInUnits))).Nodup :=
    List.Nodup.of_map Prod.fst (by rw [List.map_map]; exact hasked)
  -- lines have positive quantities, so what was asked for was positive
  have hunits : ∀ l' : OrderLine, ∀ line : ResolvedOrderLine,
      l'.quantityInUnits = line.quantityInUnits.toNat →
        (l'.quantityInUnits : ℤ) = line.quantityInUnits := by
    intro l' line hq
    have hpos := l'.quantity_pos
    omega
  refine (List.perm_ext_iff_of_nodup hleft hright).mpr (fun e => ⟨fun he => ?_, fun he => ?_⟩)
  · obtain ⟨l', hl', rfl⟩ := List.mem_map.mp he
    obtain ⟨line, hline, hoffer, hq, -⟩ := h.line l' hl'
    exact List.mem_map.mpr ⟨line, hline, by rw [hoffer, hunits l' line hq]⟩
  · obtain ⟨line, hline, rfl⟩ := List.mem_map.mp he
    obtain ⟨l', hl', hoffer⟩ := h.served line hline
    obtain ⟨asked, hasked', hoffer', hq, -⟩ := h.line l' hl'
    have heq : asked = line :=
      List.inj_on_of_nodup_map hasked hasked' hline (hoffer'.symm.trans hoffer)
    exact List.mem_map.mpr ⟨l', hl', by rw [hoffer, hunits l' asked hq, heq]⟩

/-- A line whose offer is asked for again stays. -/
theorem Edited.retained {db db' : Db} (h : Edited k lines db db')
    (hknown : ((db.orderLines k).map OrderLine.commercialOfferId).Nodup) {l : OrderLine}
    (hl : l ∈ db.orderLines k) {line : ResolvedOrderLine} (hline : line ∈ lines)
    (hoffer : line.commercialOffer.pk = l.commercialOfferId) :
    ∃ l' ∈ db'.orderLines k, l'.pk = l.pk ∧ l'.commercialOfferId = l.commercialOfferId
      ∧ l'.productId = l.productId ∧ l'.unitPriceSnapshot = l.unitPriceSnapshot := by
  obtain ⟨l', hl', hserved⟩ := h.served line hline
  have hsame := hserved.trans hoffer
  obtain ⟨-, -, -, -, ⟨m, hm, hml⟩ | ⟨-, -, hnone⟩⟩ := h.line l' hl'
  · -- the old line for the offer is `l`
    obtain rfl : m = l := List.inj_on_of_nodup_map hknown hm hl (hml.offer.symm.trans hsame)
    exact ⟨l', hl', hml.pk, hml.offer, hml.product, h.kept m hm l' hl' hml.offer⟩
  · exact absurd hsame.symm (hnone l hl)

/-- A line for a new offer is a new one. -/
theorem Edited.added {db db' : Db} (h : Edited k lines db db')
    (hasked : (lines.map (fun line => line.commercialOffer.pk)).Nodup) {line : ResolvedOrderLine}
    (hline : line ∈ lines) (hnone : ∀ l ∈ db.orderLines k, l.commercialOfferId ≠ line.commercialOffer.pk) :
    ∃ l' ∈ db'.orderLines k, db.lines.next ≤ l'.pk ∧ l'.commercialOfferId = line.commercialOffer.pk
      ∧ l'.productId = line.product.pk ∧ l'.unitPriceSnapshot = line.unitPriceSnapshot := by
  obtain ⟨l', hl', hoffer⟩ := h.served line hline
  have hprice := h.priced line (mem_addedLines.mpr ⟨hline, hnone⟩) l' hl' hoffer
  obtain ⟨asked, hasked', hoffer', -, ⟨m, hm, hml⟩ | ⟨hnew, hproduct, -⟩⟩ := h.line l' hl'
  · exact absurd (hml.offer.symm.trans hoffer) (hnone m hm)
  · obtain rfl : asked = line :=
      List.inj_on_of_nodup_map hasked hasked' hline (hoffer'.symm.trans hoffer)
    exact ⟨l', hl', hnew, hoffer, hproduct, hprice⟩

/-- What the order has reserved after an edit lies in the pools of its lines' offers. -/
theorem Rebuilt.inOwnPool (h : Rebuilt rt k lines db db₂ offer xs) {a : Allocation}
    (ha : a ∈ (db₂.withReservations xs).orderAllocations k) (hst : a.status = .reserved) :
    InOwnPool rt (db₂.withReservations xs) a := by
  obtain ⟨hmem, horder⟩ := Db.mem_orderAllocations.mp ha
  rcases Table.mem_insertAll.mp hmem with hold | hnew
  · -- the old reservations are gone
    have hgone := (h.edited.old hold).2
    rw [reservedOf_iff.mpr ⟨horder, hst⟩] at hgone
    cases hgone
  · obtain ⟨x, hx, n, rfl⟩ := mem_rowsOf hnew
    obtain ⟨hline, -, b, hb, hbx, hpool, -⟩ := h.own.own x hx
    have hserv := h.servable x.line hline
    refine ⟨x.line, ?_, rfl, offer x.line, hserv.mem, hserv.offer, b, hb, hbx, hpool⟩
    show x.line ∈ db₂.orderLines x.line.orderId
    rw [(Db.mem_orderLines.mp hline).2]
    exact hline

/-- A rebuilt order differs by exactly the requested lines. -/
theorem Rebuilt.exactDiff (h : Rebuilt rt k lines db db₂ offer xs) (o : Order) :
    ExactDiff rt k lines db ((db₂.withReservations xs).saveOrder o) where
  matched := h.edited.matched h.asked
  distinct := h.edited.distinct
  retained l hl hline := by
    obtain ⟨line, hline, hoffer⟩ := hline
    exact h.edited.retained h.known hl hline hoffer
  removed l' hl' := by
    obtain ⟨line, hline, hoffer, -⟩ := h.edited.line l' hl'
    exact ⟨line, hline, hoffer.symm⟩
  added line hline hnone := h.edited.added h.asked hline hnone
  covers := h.covers
  ownPools a ha hst := h.inOwnPool ha hst

/-! ### The order of the input -/

/-- The units an order has RESERVED on a batch for one of its lines. -/
def Db.reservedForLine (db : Db) (orderPk linePk batchPk : ℕ) : ℕ :=
  db.allocations.total (fun a =>
    if reservedOf orderPk a = true ∧ a.orderLineId = linePk ∧ a.batchId = batchPk
    then a.quantity else 0)

/-- The order `k` is the same up to the ids of its lines: same offers, products, quantities and
    prices, and same units reserved on each batch, for each offer and in all. -/
structure SameOrder (k : ℕ) (db db' : Db) : Prop where
  lines : ((db.orderLines k).map (fun l =>
      (l.commercialOfferId, l.productId, l.quantityInUnits, l.unitPriceSnapshot))).Perm
    ((db'.orderLines k).map (fun l =>
      (l.commercialOfferId, l.productId, l.quantityInUnits, l.unitPriceSnapshot)))
  ofLine : ∀ l ∈ db.orderLines k, ∀ l' ∈ db'.orderLines k,
    l.commercialOfferId = l'.commercialOfferId →
      ∀ b, db.reservedForLine k l.pk b = db'.reservedForLine k l'.pk b
  inAll : ∀ b, db.reservedBy k b = db'.reservedBy k b

/-- After an edit the reservations of the order are the new rows. -/
theorem Rebuilt.total (h : Rebuilt rt k lines db db₂ offer xs) {w : Allocation → ℕ}
    {w' : NewAllocation → ℕ} (hfree : ∀ a, reservedOf k a = false → w a = 0)
    (hrow : ∀ x ∈ xs, ∀ n, w (x.row.make n) = w' x) :
    (db₂.withReservations xs).allocations.total w = (xs.map w').sum := by
  -- The old allocations of the order are gone, so only the new ones weigh.
  have hold : db₂.allocations.total w = 0 :=
    Table.total_eq_zero.mpr (fun a ha => hfree a (h.edited.old ha).2)
  have hrows : ∀ n, ∀ ys : List NewAllocation, (∀ y ∈ ys, y ∈ xs) →
      (rowsOf n ys).map w = ys.map w' := by
    intro n ys
    induction ys generalizing n with
    | nil => exact fun _ => rfl
    | cons y ys ih =>
      intro hys
      rw [List.forall_mem_cons] at hys
      have htail := ih (n + 1) hys.2
      unfold rowsOf at htail ⊢
      rw [List.map_cons, Table.made, List.map_cons, List.map_cons, hrow y hys.1, htail]
  unfold Db.withReservations
  rw [Table.total_insertAll, hold, Nat.zero_add]
  exact congrArg List.sum (hrows _ xs (fun x hx => hx))

/-- The units reserved on a batch for a line are read off what the rows reserve. -/
theorem Rebuilt.reservedForLine (h : Rebuilt rt k lines db db₂ offer xs) {l : OrderLine}
    (hl : l ∈ db₂.orderLines k) (b : ℕ) :
    (db₂.withReservations xs).reservedForLine k l.pk b
      = ((xs.map NewAllocation.entry).map (fun e =>
          if e.1 = l.commercialOfferId ∧ e.2.1 = b then e.2.2 else 0)).sum := by
  rw [List.map_map]
  refine h.total (fun a ha => by rw [ha, if_neg (by simp)]) (fun x hx n => ?_)
  have hline := (h.own.own x hx).1
  have hres : reservedOf k (x.row.make n) = true :=
    reservedOf_iff.mpr ⟨(Db.mem_orderLines.mp hline).2, rfl⟩
  -- Lines are told apart by their offers.
  have hoffer : x.line.pk = l.pk ↔ x.line.commercialOfferId = l.commercialOfferId := by
    constructor
    · intro hpk
      rw [Table.eq_of_pk_eq (t := db₂.lines) (Db.mem_orderLines.mp hline).1
        (Db.mem_orderLines.mp hl).1 hpk]
    · intro hsame
      rw [List.inj_on_of_nodup_map h.edited.distinct hline hl hsame]
  simp only [hres, true_and]
  exact if_congr (and_congr_left' hoffer) rfl rfl

/-- The units the order reserves of a batch, from the new allocations. -/
theorem Rebuilt.reservedBy (h : Rebuilt rt k lines db db₂ offer xs) (b : ℕ) :
    (db₂.withReservations xs).reservedBy k b
      = ((xs.map NewAllocation.entry).map (fun e => if e.2.1 = b then e.2.2 else 0)).sum := by
  rw [List.map_map]
  refine h.total (fun a ha => by rw [ha, if_neg (by simp)]) (fun x hx n => ?_)
  have hres : reservedOf k (x.row.make n) = true :=
    reservedOf_iff.mpr ⟨(Db.mem_orderLines.mp (h.own.own x hx).1).2, rfl⟩
  simp only [hres, true_and]
  rfl

/-- **Order of the input.** Two edits that ask for the same lines leave the same order. -/
theorem Rebuilt.sameOrder (h : Rebuilt rt k lines db db₂ offer xs)
    (h' : Rebuilt rt k lines' db db₂' offer' xs') (hperm : lines'.Perm lines) (o o' : Order) :
    SameOrder k ((db₂.withReservations xs).saveOrder o) ((db₂'.withReservations xs').saveOrder o') := by
  have hentries := h.entries h' hperm
  refine ⟨?_, fun l hl l' hl' hoffer b => ?_, fun b => ?_⟩
  -- Lines with distinct offers are distinct in what is compared.
  · have hnodup : ∀ {ls : List OrderLine}, (ls.map OrderLine.commercialOfferId).Nodup →
        (ls.map (fun l => (l.commercialOfferId, l.productId, l.quantityInUnits,
          l.unitPriceSnapshot))).Nodup := by
      intro ls hls
      exact List.Nodup.of_map Prod.fst (by rw [List.map_map]; exact hls)
    refine (List.perm_ext_iff_of_nodup (hnodup h.edited.distinct)
      (hnodup h'.edited.distinct)).mpr (fun e => ⟨fun he => ?_, fun he => ?_⟩)
    · obtain ⟨l, hl, rfl⟩ := List.mem_map.mp he
      obtain ⟨l', hl', halike⟩ := h.edited.alike h'.edited hperm h.known h.asked hl
      exact List.mem_map.mpr ⟨l', hl',
        by rw [halike.offer, halike.product, halike.quantity, halike.price]⟩
    · obtain ⟨l', hl', rfl⟩ := List.mem_map.mp he
      obtain ⟨l, hl, halike⟩ := h'.edited.alike h.edited hperm.symm h'.known h'.asked hl'
      exact List.mem_map.mpr ⟨l, hl,
        by rw [halike.offer, halike.product, halike.quantity, halike.price]⟩
  · show (db₂.withReservations xs).reservedForLine k l.pk b
      = (db₂'.withReservations xs').reservedForLine k l'.pk b
    rw [h.reservedForLine hl, h'.reservedForLine hl', hoffer]
    exact (hentries.map _).sum_eq
  · show (db₂.withReservations xs).reservedBy k b = (db₂'.withReservations xs').reservedBy k b
    rw [h.reservedBy, h'.reservedBy]
    exact (hentries.map _).sum_eq

/-! ### The guarantee -/

/-- **An edit is an exact diff, and atomic.** When it goes through, its lines, prices and
    reservations are those of an exact diff, and it goes through with the same outcome in whatever
    order the lines are asked for.  When it raises, the database is as it was. -/
theorem placed_edit_exact (hc : OfferConstraints db) (k : ℕ) (lines : List ResolvedOrderLine)
    (user : Option ℕ) :
    (∀ db', updatePlacedBusinessOrder rt db k lines user = .ok db' →
      ExactDiff rt k lines db db' ∧
        ∀ lines' : List ResolvedOrderLine, lines'.Perm lines →
          ∃ db'', updatePlacedBusinessOrder rt db k lines' user = .ok db'' ∧ SameOrder k db' db'') ∧
    (∀ e, updatePlacedBusinessOrder rt db k lines user = .error e →
      db.commit (updatePlacedBusinessOrder rt db k lines user) = db) := by
  refine ⟨fun db' hok => ?_, fun e herror => ?_⟩
  · obtain ⟨o, -, -, -, db₂, offer, xs, h, rfl⟩ := updatePlacedOrder_rebuilt hc hok
    refine ⟨h.exactDiff _, fun lines' hperm => ?_⟩
    -- A permutation of the lines is edited as well, and rebuilds the same order.
    obtain ⟨db'', hok'⟩ := updatePlacedOrder_perm hc hperm hok
    obtain ⟨o', -, -, -, db₂', offer', xs', h', rfl⟩ := updatePlacedOrder_rebuilt hc hok'
    exact ⟨_, hok', h.sameOrder h' hperm _ _⟩
  · rw [herror]
    rfl

namespace Shop

/-- Five units of the standard offer, and two of the clearance offer. -/
def editedLines : List ResolvedOrderLine :=
  [⟨product, 2, clearanceOffer, some 500⟩, ⟨product, 5, businessOffer, none⟩]

def editPlaced (lines : List ResolvedOrderLine) : Result Db :=
  updatePlacedBusinessOrder (runtime 4) stall 1 lines none

end Shop

/-- One line is resized, one is added. -/
theorem placed_edit_exact_shop :
    ∃ db', Shop.editPlaced Shop.editedLines = .ok db'
      ∧ ExactDiff (Shop.runtime 4) 1 Shop.editedLines Shop.stall db'
      ∧ ∃ db'', Shop.editPlaced Shop.editedLines.reverse = .ok db'' ∧ SameOrder 1 db' db'' := by
  have hok : Shop.editPlaced Shop.editedLines
      = .ok (Shop.stall.commit (Shop.editPlaced Shop.editedLines)) := Db.commit_eq (by decide +kernel)
  obtain ⟨hdiff, hperm⟩ := (placed_edit_exact Shop.stall_offers.constraints 1 Shop.editedLines none).1 _ hok
  exact ⟨_, hok, hdiff, hperm _ (List.reverse_perm _)⟩

end SwedeSweets
