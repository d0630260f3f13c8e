import SwedeSweets.Business.PlacedEdits
import SwedeSweets.Guarantees.RetailCatalog
import SwedeSweets.OpsPortal.Checklist

namespace SwedeSweets

open Relational Fallible OpsPortal

/-!
# What the marks of the pick checklist say after an edit

An edit rebuilds the reservations first expiry first, so an unchanged line may be spread
differently over the batches it was reserved from.  The marks are carried over by line and
batch: `checklist_marks_verified` says when no mark then speaks of units nobody picked, and
`checklist_mark_moved` is an edit that changes nothing and doubles a marked amount.
-/

variable {rt : Runtime} {s s' : OpsDb} {k : ℕ}

/-- A marked allocation was marked with the same line, batch and units before. -/
def MarksVerified (s s' : OpsDb) : Prop :=
  ∀ a' ∈ s'.db.allocations, s'.marked a' = true → ∃ a ∈ s.db.allocations, s.marked a = true
    ∧ a.orderLineId = a'.orderLineId ∧ a.batchId = a'.batchId ∧ a.quantity = a'.quantity

/-- A marked allocation of an unchanged line that is there again keeps its mark. -/
def MarksKept (k : ℕ) (lines : List ResolvedOrderLine) (s s' : OpsDb) : Prop :=
  ∀ l ∈ s.db.orderLines k, isUnchanged lines l = true →
    ∀ a ∈ s.db.allocations, reservedOf k a = true → a.orderLineId = l.pk → s.marked a = true →
      ∀ a' ∈ s'.db.allocations, reservedOf k a' = true → a'.orderLineId = l.pk →
        a'.batchId = a.batchId → a'.quantity = a.quantity → s'.marked a' = true

/-- For every marked allocation of an unchanged line: the share its batch now has for the line
    is nothing, or the units of an allocation of that line and batch that is marked. -/
def SharesVerified (rt : Runtime) (k : ℕ) (lines : List ResolvedOrderLine) (s : OpsDb) : Prop :=
  ∀ l ∈ s.db.orderLines k, isUnchanged lines l = true →
    ∀ a ∈ s.db.allocations, reservedOf k a = true → a.orderLineId = l.pk → s.marked a = true →
      ∀ o ∈ s.db.commercialPrices, o.pk = l.commercialOfferId →
        ∀ b ∈ s.db.batches, b.pk = a.batchId →
          let share := (s.db.cleared k lines).fefoShare rt.now
            (listOrderableBatchesForOffer rt s.db o .eur) l.quantityInUnits b
          share = 0 ∨ ∃ a₁ ∈ s.db.allocations, s.marked a₁ = true ∧ a₁.orderLineId = l.pk
            ∧ a₁.batchId = b.pk ∧ a₁.quantity = share

/-! ### The marks after the edit -/

/-- The keys that are marked again: unchanged lines with a marked reserved allocation. -/
theorem mem_checkedKeys {lines : List ResolvedOrderLine} {linePk batchPk : ℕ} :
    (linePk, batchPk) ∈ checkedKeys s k lines ↔ ∃ l ∈ s.db.orderLines k,
      isUnchanged lines l = true ∧ l.pk = linePk ∧ ∃ a ∈ s.db.allocations, reservedOf k a = true
        ∧ a.orderLineId = linePk ∧ a.batchId = batchPk ∧ s.marked a = true := by
  unfold checkedKeys unchangedLineIds
  simp only [List.mem_map, List.mem_filter, Table.mem_select, Bool.and_eq_true,
    List.contains_iff_mem, Prod.mk.injEq]
  constructor
  · rintro ⟨a, ⟨⟨ha, hres⟩, hmarked, l, ⟨hl, hunch⟩, hla⟩, hline, hbatch⟩
    exact ⟨l, hl, hunch, hla.trans hline, a, ha, hres, hline, hbatch, hmarked⟩
  · rintro ⟨l, hl, hunch, hpk, a, ha, hres, hline, hbatch, hmarked⟩
    exact ⟨a, ⟨⟨ha, hres⟩, hmarked, l, ⟨hl, hunch⟩, hpk.trans hline.symm⟩, hline, hbatch⟩

/-- With one line for each offer the quantity asked for under an offer is that of its line. -/
theorem isUnchanged_iff {lines : List ResolvedOrderLine}
    (hnd : (lines.map (fun line => line.commercialOffer.pk)).Nodup) {l : OrderLine} :
    isUnchanged lines l = true ↔ ∃ line ∈ lines, line.commercialOffer.pk = l.commercialOfferId
      ∧ line.quantityInUnits = l.quantityInUnits := by
  have hnd' : ((lines.map (fun line => (line.commercialOffer.pk, line.quantityInUnits))).reverse.map
      Prod.fst).Nodup := by
    rw [List.map_reverse, List.nodup_reverse, List.map_map]
    exact hnd
  unfold isUnchanged incomingQuantity
  rw [decide_eq_true_iff, Dict.lookup_eq_some_iff_mem hnd', List.mem_reverse, List.mem_map]
  simp only [Prod.mk.injEq]

/-! ### The rows after the edit -/

section

variable {lines : List ResolvedOrderLine} {db₂ : Db} {offer : OrderLine → CommercialPrice}
  {xs : List NewAllocation}

/-- A new row is a reservation of the order, and nobody has marked it. -/
theorem Rebuilt.new (h : Rebuilt rt k lines s.db db₂ offer xs) {a : Allocation}
    (ha : a ∈ rowsOf db₂.allocations.next xs) :
    s.marked a = false ∧ reservedOf k a = true ∧ ∃ x ∈ xs, a.orderLineId = x.line.pk
      ∧ a.batchId = x.batchPk ∧ a.quantity = x.quantity := by
  have hpk : s.db.allocations.next ≤ a.pk := by
    have hle := Table.le_pk_of_made ha
    rwa [h.edited.allocations] at hle
  obtain ⟨x, hx, m, rfl⟩ := mem_rowsOf ha
  refine ⟨?_, ?_, x, hx, rfl, rfl, rfl⟩
  · rw [← Bool.not_eq_true, OpsDb.marked_iff]
    rintro ⟨mark, hmark, hma⟩
    obtain ⟨a', ha', hpk'⟩ := s.references mark hmark
    have hlt : a'.pk < s.db.allocations.next := s.db.allocations.bounded a' ha'
    omega
  · exact reservedOf_iff.mpr ⟨(Db.mem_orderLines.mp (h.own.own x hx).1).2, rfl⟩

end

/-! ### The guarantee -/

section

variable {lines : List ResolvedOrderLine} {db₂ : Db} {offer : OrderLine → CommercialPrice}
  {xs : List NewAllocation}

/-- The line an unchanged line is after the edit. -/
theorem Rebuilt.unchanged (h : Rebuilt rt k lines s.db db₂ offer xs) {l : OrderLine}
    (hl : l ∈ s.db.orderLines k) (hunch : isUnchanged lines l = true) :
    ∃ l' ∈ db₂.orderLines k, l'.pk = l.pk ∧ l'.commercialOfferId = l.commercialOfferId := by
  obtain ⟨line, hline, hoffer, -⟩ := (isUnchanged_iff h.asked).mp hunch
  obtain ⟨l', hl', hl'offer⟩ := h.edited.served line hline
  have hsame := hl'offer.trans hoffer
  obtain ⟨-, -, -, -, ⟨x, hx, hsx⟩ | ⟨-, -, hnone⟩⟩ := h.edited.line l' hl'
  · -- the old line for the offer is `l`
    have heq : x = l := List.inj_on_of_nodup_map h.known hx hl (hsx.offer.symm.trans hsame)
    exact ⟨l', hl', heq ▸ hsx.pk, hsame⟩
  · exact absurd hsame.symm (hnone l hl)

/-- A line after the edit with the key of an unchanged line has its offer and quantity. -/
theorem Rebuilt.same (h : Rebuilt rt k lines s.db db₂ offer xs) {l l' : OrderLine}
    (hl : l ∈ s.db.orderLines k) (hunch : isUnchanged lines l = true)
    (hl' : l' ∈ db₂.orderLines k) (hpk : l'.pk = l.pk) :
    l'.commercialOfferId = l.commercialOfferId ∧ l'.quantityInUnits = l.quantityInUnits := by
  obtain ⟨line, hline, hoffer, hq⟩ := (isUnchanged_iff h.asked).mp hunch
  -- The line after the edit is the old one kept, or a new one with a new key.
  obtain ⟨line', hline', hoffer', hq', ⟨x, hx, hsx⟩ | ⟨hnew, -⟩⟩ := h.edited.line l' hl'
  · have heq : x = l := Table.eq_of_pk_eq (t := s.db.lines) (Db.mem_orderLines.mp hx).1
      (Db.mem_orderLines.mp hl).1 (hsx.pk.symm.trans hpk)
    have hsame : l'.commercialOfferId = l.commercialOfferId := heq ▸ hsx.offer
    have heq' : line' = line := List.inj_on_of_nodup_map h.asked hline' hline
      (hoffer'.symm.trans (hsame.trans hoffer.symm))
    exact ⟨hsame, by rw [hq', heq', hq]; rfl⟩
  · -- the key of a new line is new
    have hlt : l.pk < s.db.lines.next := s.db.lines.bounded l (Db.mem_orderLines.mp hl).1
    have hnew : s.db.lines.next ≤ l'.pk := hnew
    omega

end

/-- **The checklist after an edit.** No mark speaks of units that were not picked iff the
    share that the batch of a marked allocation of an unchanged line now has for that line is
    nothing, or an amount that is marked.  A marked allocation that is there again keeps its
    mark in any case. -/
theorem checklist_marks_verified (hc : OfferConstraints s.db) {inputs : List BusinessOfferLineInput}
    {user : Option ℕ} {lines : List ResolvedOrderLine}
    (hlines : resolveBusinessOfferLines s.db inputs = .ok lines)
    (hok : updatePlacedOrderAndPreserveChecklist rt s k inputs user = .ok s') :
    (MarksVerified s s' ∧ MarksKept k lines s s') ↔ SharesVerified rt k lines s := by
  obtain ⟨resolved, hresolved, hedit, hmarked⟩ := preserve_eq_ok hok
  obtain rfl : lines = resolved := by
    rw [hlines, Except.ok.injEq] at hresolved
    exact hresolved
  obtain ⟨order, -, -, -, db₂, offer, xs, h, hdb⟩ := updatePlacedOrder_rebuilt hc hedit
  have hrows : ∀ a, a ∈ s'.db.allocations ↔
      a ∈ db₂.allocations ∨ a ∈ rowsOf db₂.allocations.next xs := by
    intro a
    rw [hdb]
    exact Table.mem_insertAll
  -- a new row is marked iff its line and batch were checked
  have hnew : ∀ a ∈ rowsOf db₂.allocations.next xs,
      s'.marked a = true ↔ (a.orderLineId, a.batchId) ∈ checkedKeys s k lines := by
    intro a ha
    obtain ⟨hunmarked, hres, -⟩ := h.new ha
    rw [hmarked a ((hrows a).mpr (Or.inr ha)), hunmarked]
    simp [hres]
  constructor
  · rintro ⟨hverified, -⟩ l hl hunch a ha hres hline hmark o ho hoffer b hb hab
    by_cases hzero : (s.db.cleared k lines).fefoShare rt.now
        (listOrderableBatchesForOffer rt s.db o .eur) l.quantityInUnits b = 0
    · exact Or.inl hzero
    refine Or.inr ?_
    obtain ⟨l', hl', hpk, hl'offer⟩ := h.unchanged hl hunch
    have hq := (h.same hl hunch hl' hpk).2
    have hserv := h.servable l' hl'
    have hprice : offer l' = o := Table.eq_of_pk_eq (t := s.db.commercialPrices)
      (h.edited.prices ▸ hserv.mem) ho (hserv.offer.trans (hl'offer.trans hoffer.symm))
    have hb₂ : b ∈ db₂.batches := h.edited.batches ▸ hb
    have hshare := h.share o l.quantityInUnits hb
    obtain ⟨x, hx, hxl, hxb, hxq⟩ := h.own.all l' hl' b hb₂ (by
      rw [hprice, hq, hshare]
      exact Nat.pos_of_ne_zero hzero)
    rw [hprice, hq, hshare] at hxq
    -- the row of that share carries a mark
    obtain ⟨m, hrow⟩ : ∃ m, x.row.make m ∈ rowsOf db₂.allocations.next xs :=
      Table.exists_made (List.mem_map_of_mem hx) _
    have hxpk : x.line.pk = l.pk := hxl ▸ hpk
    have hkey : (x.line.pk, x.batchPk) ∈ checkedKeys s k lines := mem_checkedKeys.mpr
      ⟨l, hl, hunch, hxpk.symm, a, ha, hres, hline.trans hxpk.symm, hab.symm.trans hxb.symm, hmark⟩
    obtain ⟨a₁, ha₁, hmark₁, hline₁, hbatch₁, hq₁⟩ :=
      hverified _ ((hrows _).mpr (Or.inr hrow)) ((hnew _ hrow).mpr hkey)
    exact ⟨a₁, ha₁, hmark₁, hline₁.trans hxpk, hbatch₁.trans hxb, hq₁.trans hxq⟩
  · intro hshares
    refine ⟨fun a' ha' hmark' => ?_,
      fun l hl hunch a ha hres hline hmark a' ha' hres' hline' hbatch _ => ?_⟩
    · rcases (hrows a').mp ha' with hold | hrow
      · -- an old row that is marked was marked
        obtain ⟨ha, hfree⟩ := h.edited.old hold
        rcases (hmarked a' ha').mp hmark' with hmark | ⟨hres, -⟩
        · exact ⟨a', ha, hmark, rfl, rfl, rfl⟩
        · rw [hfree] at hres
          cases hres
      · obtain ⟨-, -, x, hx, hxl, hxb, hxq⟩ := h.new hrow
        obtain ⟨l, hl, hunch, hpk, a, ha, hres, hline, hbatch, hmark⟩ :=
          mem_checkedKeys.mp ((hnew a' hrow).mp hmark')
        obtain ⟨hl', -, b, hb, hbx, -, hshare⟩ := h.own.own x hx
        have hb : b ∈ s.db.batches := h.edited.batches ▸ hb
        obtain ⟨hoffer, hq⟩ := h.same hl hunch hl' (hxl.symm.trans hpk.symm)
        have hserv := h.servable x.line hl'
        rw [hq, h.share (offer x.line) _ hb] at hshare
        have hpos := x.quantity_pos
        rcases hshares l hl hunch a ha hres (hline.trans hpk.symm) hmark (offer x.line)
            (h.edited.prices ▸ hserv.mem) (hserv.offer.trans hoffer) b hb
            (hbx.trans (hxb.symm.trans hbatch.symm)) with hzero | ⟨a₁, ha₁, hmark₁, hline₁, hbatch₁, hq₁⟩
        · omega
        · exact ⟨a₁, ha₁, hmark₁, hline₁.trans hpk, hbatch₁.trans (hbx.trans hxb.symm),
            hq₁.trans (hshare.symm.trans hxq.symm)⟩
    · rcases (hrows a').mp ha' with hold | hrow
      · rw [(h.edited.old hold).2] at hres'
        cases hres'
      · exact (hnew a' hrow).mpr (mem_checkedKeys.mpr
          ⟨l, hl, hunch, hline'.symm, a, ha, hres, hline.trans hline'.symm, hbatch.symm, hmark⟩)

namespace Shop

/-- A second batch; the first order takes six units of the first batch, the second order the
    other four and four of the second batch. -/
def twoOrders : List (Runtime × Op) :=
  opening ++
  [ (runtime 1, .createBatch 1 10 40 "Shelf" (some "C") none false none),
    (runtime 2, .createOrder 7 [⟨6, .stock, some 1, none⟩] none),
    (runtime 3, .createOrder 8 [⟨8, .stock, some 1, none⟩] none) ]

def OpsDb.ofDb (db : Db) : OpsDb := ⟨db, .empty, by simp, by simp⟩

/-- The state after a service of the ops portal. -/
def commit (s : OpsDb) : Result OpsDb → OpsDb
  | .ok s' => s'
  | .error _ => s

/-- A call that succeeds returns the committed state. -/
theorem commit_eq {s : OpsDb} {r : Result OpsDb} (h : r.isOk = true) : r = .ok (commit s r) := by
  cases r with
  | ok s' => rfl
  | error e => cases h

/-- The two reservations of the second order are picked. -/
def picked (db : Db) : OpsDb :=
  [2, 3].foldl (fun s allocationId =>
    commit s ((toggleChecklistMark s 2 allocationId).map Prod.fst)) (OpsDb.ofDb db)

/-- An edit of the second order that asks for what it has. -/
def unchangedEdit (s : OpsDb) : Result OpsDb :=
  updatePlacedOrderAndPreserveChecklist (runtime 6) s 2 [⟨1, 8, .stock⟩] none

/-- Picked, with the first order still there. -/
def quiet : OpsDb := picked (State.init.after twoOrders).db

/-- Picked after the first order was cancelled. -/
def freed : OpsDb :=
  picked (State.init.after (twoOrders ++ [(runtime 4, .cancelOrder 1 none "customer" "")])).db

/-- The example's offers fit together. -/
theorem quiet_offers : OfferConstraints quiet.db := by decide +kernel

end Shop

/-- With the first order in place the edit reserves what it reserved before. -/
theorem checklist_marks_verified_quiet :
    MarksVerified Shop.quiet (Shop.commit Shop.quiet (Shop.unchangedEdit Shop.quiet)) := by
  have hlines : resolveBusinessOfferLines Shop.quiet.db [⟨1, 8, .stock⟩]
      = .ok [⟨Shop.product, 8, Shop.businessOffer, none⟩] := by rfl
  have hok := Shop.commit_eq (s := Shop.quiet) (r := Shop.unchangedEdit Shop.quiet) (by decide +kernel)
  refine ((checklist_marks_verified Shop.quiet_offers hlines hok).mpr ?_).1
  -- both shares are what was picked
  have hshares : ∀ l ∈ Shop.quiet.db.orderLines 2, ∀ o ∈ Shop.quiet.db.commercialPrices.rows,
      o.pk = l.commercialOfferId → ∀ b ∈ Shop.quiet.db.batches.rows,
        ∃ a₁ ∈ Shop.quiet.db.allocations.rows, Shop.quiet.marked a₁ = true ∧ a₁.orderLineId = l.pk
          ∧ a₁.batchId = b.pk ∧ a₁.quantity
            = (Shop.quiet.db.cleared 2 [⟨Shop.product, 8, Shop.businessOffer, none⟩]).fefoShare
            (Shop.runtime 6).now (listOrderableBatchesForOffer (Shop.runtime 6) Shop.quiet.db o .eur)
            l.quantityInUnits b := by
    decide +kernel
  intro l hl _ a _ _ _ _ o ho hoffer b hb _
  exact Or.inr (hshares l hl o ho hoffer b hb)

/-- **A mark moves.** Four units of each batch were picked for the second order, and the first
    order was cancelled.  An edit that changes nothing reserves all eight units from the first
    batch and marks them as picked. -/
theorem checklist_mark_moved :
    Shop.unchangedEdit Shop.freed = .ok (Shop.commit Shop.freed (Shop.unchangedEdit Shop.freed))
      ∧ ¬ MarksVerified Shop.freed (Shop.commit Shop.freed (Shop.unchangedEdit Shop.freed)) := by
  refine ⟨Shop.commit_eq (by decide +kernel), fun h => ?_⟩
  have hmoved : ∃ a' ∈ (Shop.commit Shop.freed (Shop.unchangedEdit Shop.freed)).db.allocations.rows,
      (Shop.commit Shop.freed (Shop.unchangedEdit Shop.freed)).marked a' = true ∧
        ∀ a ∈ Shop.freed.db.allocations.rows, Shop.freed.marked a = true →
          a.quantity ≠ a'.quantity := by
    decide +kernel
  obtain ⟨a', ha', hmark', hnone⟩ := hmoved
  obtain ⟨a, ha, hmark, -, -, hq⟩ := h a' ha' hmark'
  exact hnone a ha hmark hq

end SwedeSweets
