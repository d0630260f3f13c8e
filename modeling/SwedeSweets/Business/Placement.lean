import SwedeSweets.Guarantees.Catalog
import SwedeSweets.Invariants.Lifecycle
import SwedeSweets.Reservations.Shares

namespace SwedeSweets

open Relational Fallible

/-!
# Reserving the lines of a business order together

The placement policy reserves the lines one after the other, each from the pool of its own
offer.  Pools of different offers are disjoint, so what one line takes is not missing for
another: `reserveBusinessLines_returns` — the loop succeeds iff every line fits the free units
its pool has before the loop.
-/

/-- The line may be reserved from the pool of the offer. -/
structure Servable (db : Db) (line : OrderLine) (o : CommercialPrice) : Prop where
  mem : o ∈ db.commercialPrices
  offer : o.pk = line.commercialOfferId
  product : o.productId = line.productId
  channel : o.channel = .business
  sellable : o.Sellable db

variable {rt : Runtime} {db db' : Db}

/-- A line is served by one offer. -/
theorem Servable.unique {line : OrderLine} {o o' : CommercialPrice} (h : Servable db line o)
    (h' : Servable db line o') : o = o' :=
  Table.eq_of_pk_eq (t := db.commercialPrices) h.mem h'.mem (h.offer.trans h'.offer.symm)

/-- A line stays servable while products and offers do. -/
theorem Servable.frame {line : OrderLine} {o : CommercialPrice} (h : Servable db line o)
    (hproducts : db'.products = db.products)
    (hoffers : db'.commercialPrices = db.commercialPrices) : Servable db' line o := by
  refine ⟨hoffers ▸ h.mem, h.offer, h.product, h.channel, ?_⟩
  have hactive := h.sellable
  unfold CommercialPrice.Sellable productActive at *
  rw [hproducts]
  exact hactive

/-- The pools of offers that may be sold are disjoint. -/
theorem Servable.disjoint (hc : OfferConstraints db) {l l' : OrderLine} {o o' : CommercialPrice}
    (h : Servable db l o) (h' : Servable db l' o') (hne : l.commercialOfferId ≠ l'.commercialOfferId)
    {b : InventoryBatch} (hq : listOrderableBatchesForOffer rt db o .eur b = true) :
    listOrderableBatchesForOffer rt db o' .eur b = false := by
  rw [← Bool.not_eq_true]
  intro hq'
  -- a servable offer is product-wide or has a price
  have hpoolable : ∀ {l : OrderLine} {o : CommercialPrice}, Servable db l o → o.Poolable .eur := by
    intro l o h
    by_cases hbatch : o.batchId = none
    · exact Or.inl hbatch
    · exact Or.inr (h.sellable.2.2 hbatch)
  have heq := pools_disjoint hc h.mem h'.mem (h.channel.trans h'.channel.symm) (hpoolable h)
    (hpoolable h') hq hq'
  exact hne (h.offer.symm.trans (heq ▸ h'.offer))

/-- The checks of the policy pass on a line that may be reserved. -/
theorem reserveBusinessLine_eq_ok {line : OrderLine} {o : CommercialPrice} (h : Servable db line o) :
    reserveBusinessLine rt db line = .ok db' ↔
      reserveOrderLineFromPool rt db line (listOrderableBatchesForOffer rt db o .eur)
        line.quantityInUnits none = .ok db' := by
  obtain ⟨product, hproduct, hpk, hactive⟩ := productActive_iff.mp h.sellable.1
  -- the product, the offer and its checks are those of the servable line
  have hget : db.getProduct line.productId = .ok product := by
    unfold Db.getProduct
    rw [orRaise_eq_ok]
    exact Table.get?_eq_some.mpr ⟨hproduct, hpk.trans h.product⟩
  have hoffer : db.getCommercialPrice line.commercialOfferId = .ok o :=
    Db.getCommercialPrice_eq_ok.mpr ⟨h.mem, h.offer⟩
  have hpriced : ¬(o.batchId ≠ none ∧ o.hasAmount .eur = false) := by
    rintro ⟨hbatch, hamount⟩
    rw [h.sellable.2.2 hbatch] at hamount
    cases hamount
  unfold reserveBusinessLine
  simp only [bind_eq_ok, hget, hoffer, Except.ok.injEq, exists_eq_left', validateBusinessOffer,
    require_eq_ok, exists_const, mapError_eq_ok]
  exact ⟨fun hok => hok.2, fun hok => ⟨⟨h.product, h.channel, ⟨hactive, h.sellable.2.1⟩, hpriced⟩, hok⟩⟩

/-- A line that was reserved could be. -/
theorem servable_of_ok {line : OrderLine} (h : reserveBusinessLine rt db line = .ok db') :
    ∃ o, Servable db line o := by
  unfold reserveBusinessLine at h
  simp only [bind_eq_ok, validateBusinessOffer, require_eq_ok, exists_const, Db.getProduct,
    orRaise_eq_ok, Db.getCommercialPrice_eq_ok] at h
  obtain ⟨product, hproduct, o, ⟨ho, hoffer⟩, ⟨hline, hch, ⟨hactive, henabled⟩, hpriced⟩, -⟩ := h
  obtain ⟨hmem, hpk⟩ := Table.get?_eq_some.mp hproduct
  refine ⟨o, ho, hoffer, hline, hch, ?_, henabled, fun hbatch => ?_⟩
  · exact productActive_iff.mpr ⟨product, hmem, hpk.trans hline.symm, hactive⟩
  · by_contra hamount
    exact hpriced ⟨hbatch, Bool.not_eq_true _ ▸ hamount⟩

/-- Pools depend on the date, and on nothing else of the runtime. -/
theorem pool_of_today {rt rt' : Runtime} (h : rt.today = rt'.today) (db : Db) (o : CommercialPrice)
    (currency : Currency) :
    listOrderableBatchesForOffer rt db o currency = listOrderableBatchesForOffer rt' db o currency := by
  unfold listOrderableBatchesForOffer
  rw [h]

/-- One line is reserved iff it fits the free units of its pool. -/
theorem reserveBusinessLine_returns (hc : OfferConstraints db) {line : OrderLine}
    {o : CommercialPrice} (h : Servable db line o) :
    (∃ db', reserveBusinessLine rt db line = .ok db') ↔
      line.quantityInUnits ≤ db.poolCapacity rt.now (listOrderableBatchesForOffer rt db o .eur) := by
  simp only [reserveBusinessLine_eq_ok h]
  rw [reserveOrderLineFromPool_returns]
  exact ⟨fun hr => hr.2.2, fun hcap => ⟨line.quantity_pos,
    fun b hb hq => (hc.productId_of_pool h.mem hb hq).trans h.product, hcap⟩⟩

/-- Reservations on other batches leave the free units of a batch as they were. -/
theorem freeUnits_withReservations {xs : List NewAllocation} {now : Time} {b : InventoryBatch}
    (hlive : ∀ x ∈ xs, Unexpired now x.reservedUntil) (hout : ∀ x ∈ xs, x.batchPk ≠ b.pk) :
    (db.withReservations xs).freeUnits now b = db.freeUnits now b := by
  have hzero : unitsOnBatch xs b.pk = 0 := by
    unfold unitsOnBatch
    rw [List.sum_eq_zero_iff]
    intro v hv
    obtain ⟨x, hx, rfl⟩ := List.mem_map.mp hv
    exact if_neg (hout x hx)
  unfold Db.freeUnits
  rw [Db.activeReserved_withReservations hlive, hzero, Nat.add_zero]

/-- The free units of a pool depend on those of its batches. -/
theorem poolCapacity_congr {now : Time} {batches : BatchQuery} (hbatches : db'.batches = db.batches)
    (hfree : ∀ b ∈ db.batches, batches b = true → db'.freeUnits now b = db.freeUnits now b) :
    db'.poolCapacity now batches = db.poolCapacity now batches := by
  rw [Db.poolCapacity_eq, Db.poolCapacity_eq, hbatches]
  refine Table.total_congr (fun b hb => ?_)
  by_cases hq : batches b = true
  · rw [if_pos hq, if_pos hq, hfree b hb hq]
  · rw [if_neg hq, if_neg hq]

/-- With fewer units reserved a pool has at least as many free units. -/
theorem poolCapacity_mono {now now' : Time} (hbatches : db'.batches = db.batches)
    (hreserved : ∀ b, db'.activeReserved now' b ≤ db.activeReserved now b) (batches : BatchQuery) :
    db.poolCapacity now batches ≤ db'.poolCapacity now' batches := by
  rw [Db.poolCapacity_eq, Db.poolCapacity_eq, hbatches]
  refine Table.total_mono (fun b _ => ?_)
  by_cases hq : batches b = true
  · have hle := hreserved b.pk
    rw [if_pos hq, if_pos hq]
    unfold Db.freeUnits
    omega
  · rw [if_neg hq, if_neg hq]

/-- Deleting allocations reserves no more. -/
theorem activeReserved_delete {p : Allocation → Bool} (now : Time)
    (hallocs : db'.allocations = db.allocations.delete p) (b : ℕ) :
    db'.activeReserved now b ≤ db.activeReserved now b := by
  unfold Db.activeReserved
  rw [hallocs, Table.total_delete]
  refine Table.total_mono (fun a _ => ?_)
  by_cases hp : p a = true
  · rw [if_pos hp]
    exact Nat.zero_le _
  · rw [if_neg hp]

/-- So do the shares of its batches. -/
theorem fefoShare_congr {now : Time} {batches : BatchQuery} (hbatches : db'.batches = db.batches)
    (hfree : ∀ b ∈ db.batches, batches b = true → db'.freeUnits now b = db.freeUnits now b)
    (quantity : ℕ) {b : InventoryBatch} (hb : b ∈ db.batches) :
    db'.fefoShare now batches quantity b = db.fefoShare now batches quantity b := by
  have hbefore : db'.unitsBefore now batches b = db.unitsBefore now batches b := by
    refine poolCapacity_congr hbatches (fun c hc hq => hfree c hc ?_)
    rw [Bool.and_eq_true] at hq
    exact hq.1
  unfold Db.fefoShare
  rw [hbefore]
  by_cases hq : batches b = true
  · rw [if_pos hq, if_pos hq, hfree b hb hq]
  · rw [if_neg hq, if_neg hq]

/-- The constraints stay while offers and batches do. -/
theorem OfferConstraints.frame (h : OfferConstraints db)
    (hoffers : db'.commercialPrices = db.commercialPrices) (hbatches : db'.batches = db.batches) :
    OfferConstraints db' := by
  constructor
  · rw [hoffers]
    exact h.uniqueProductPrice
  · rw [hoffers]
    exact h.uniqueBatchPrice
  · rw [hoffers, hbatches]
    exact h.batchProduct

/-- What the loop writes: for each line the shares of the batches in the pool of its offer. -/
structure FromOwnPools (rt : Runtime) (db : Db) (offer : OrderLine → CommercialPrice)
    (lines : List OrderLine) (xs : List NewAllocation) : Prop where
  own : ∀ x ∈ xs, x.line ∈ lines ∧ x.reservedUntil = none ∧ ∃ b ∈ db.batches, b.pk = x.batchPk
    ∧ listOrderableBatchesForOffer rt db (offer x.line) .eur b = true
    ∧ x.quantity = db.fefoShare rt.now (listOrderableBatchesForOffer rt db (offer x.line) .eur)
        x.line.quantityInUnits b
  all : ∀ l ∈ lines, ∀ b ∈ db.batches,
    0 < db.fefoShare rt.now (listOrderableBatchesForOffer rt db (offer l) .eur) l.quantityInUnits b →
    ∃ x ∈ xs, x.line = l ∧ x.batchPk = b.pk ∧ x.quantity
      = db.fefoShare rt.now (listOrderableBatchesForOffer rt db (offer l) .eur) l.quantityInUnits b
  /-- One row for each offer and batch. -/
  single : (xs.map (fun x => (x.line.commercialOfferId, x.batchPk))).Nodup

/-- **The head of the loop.** Reserving one line leaves the pools of the others alone. -/
theorem reserveBusinessLine_step (hc : OfferConstraints db) {offer : OrderLine → CommercialPrice}
    {line : OrderLine} (h : Servable db line (offer line))
    (hok : reserveBusinessLine rt db line = .ok db') :
    ∃ xs, db' = db.withReservations xs ∧ FromOwnPools rt db offer [line] xs ∧
      ∀ l, Servable db l (offer l) → line.commercialOfferId ≠ l.commercialOfferId →
        ∀ b ∈ db.batches, listOrderableBatchesForOffer rt db (offer l) .eur b = true →
          db'.freeUnits rt.now b = db.freeUnits rt.now b := by
  obtain ⟨xs, rfl, hxs, huntil⟩ := reserve_share ((reserveBusinessLine_eq_ok h).mp hok)
  -- what has a share is in the pool
  have hpool : ∀ x ∈ xs, ∃ b ∈ db.batches, b.pk = x.batchPk
      ∧ listOrderableBatchesForOffer rt db (offer line) .eur b = true
      ∧ x.quantity = db.fefoShare rt.now (listOrderableBatchesForOffer rt db (offer line) .eur)
          line.quantityInUnits b := by
    intro x hx
    obtain ⟨-, b, hb, hpk, hshare⟩ := hxs.row x hx
    refine ⟨b, hb, hpk, ?_, hshare⟩
    by_contra hq
    unfold Db.fefoShare at hshare
    rw [if_neg hq] at hshare
    exact absurd hshare (Nat.ne_of_gt x.quantity_pos)
  refine ⟨xs, rfl, ⟨fun x hx => ?_, fun l hl b hb hpos => ?_, ?_⟩, fun l hl hne b hb hq => ?_⟩
  · have hline := (hxs.row x hx).1
    obtain ⟨b, hb, hpk, hq, hshare⟩ := hpool x hx
    exact ⟨hline ▸ List.mem_singleton_self _, huntil x hx, b, hb, hpk, hline ▸ hq, hline ▸ hshare⟩
  · obtain rfl := List.mem_singleton.mp hl
    obtain ⟨x, hx, hpk, hshare⟩ := hxs.all b hb hpos
    exact ⟨x, hx, (hxs.row x hx).1, hpk, hshare⟩
  · refine List.Nodup.of_map Prod.snd ?_
    rw [List.map_map]
    exact hxs.single
  · refine freeUnits_withReservations (fun x hx u hu => ?_) (fun x hx hxb => ?_)
    · rw [huntil x hx] at hu
      cases hu
    · obtain ⟨c, hcb, hcx, hcq, -⟩ := hpool x hx
      have hcb : c = b := Table.eq_of_pk_eq (t := db.batches) hcb hb (hcx.trans hxb)
      rw [hcb] at hcq
      rw [Servable.disjoint hc h hl hne hcq] at hq
      cases hq

/-- **All lines together.** The loop succeeds iff every line fits the free units its pool has
    before the loop. -/
theorem reserveBusinessLines_returns (hc : OfferConstraints db)
    {offer : OrderLine → CommercialPrice} {lines : List OrderLine}
    (hserv : ∀ l ∈ lines, Servable db l (offer l))
    (hnd : (lines.map OrderLine.commercialOfferId).Nodup) :
    (∃ db', lines.foldlM (reserveBusinessLine rt) db = .ok db') ↔
      ∀ l ∈ lines, l.quantityInUnits
        ≤ db.poolCapacity rt.now (listOrderableBatchesForOffer rt db (offer l) .eur) := by
  induction lines generalizing db with
  | nil => simp
  | cons line lines ih =>
    rw [List.map_cons, List.nodup_cons] at hnd
    have hhead := hserv line (List.mem_cons_self ..)
    have htail : ∀ l ∈ lines, Servable db l (offer l) ∧ line.commercialOfferId ≠ l.commercialOfferId :=
      fun l hl => ⟨hserv l (List.mem_cons_of_mem _ hl),
        fun he => hnd.1 (List.mem_map.mpr ⟨l, hl, he.symm⟩)⟩
    -- after the head the rest finds its pools as they were
    have hrest : ∀ {db₁ : Db}, reserveBusinessLine rt db line = .ok db₁ →
        ((∃ db', lines.foldlM (reserveBusinessLine rt) db₁ = .ok db') ↔
          ∀ l ∈ lines, l.quantityInUnits
            ≤ db.poolCapacity rt.now (listOrderableBatchesForOffer rt db (offer l) .eur)) := by
      intro db₁ hok
      obtain ⟨xs, rfl, -, hkeep⟩ := reserveBusinessLine_step hc hhead hok
      have hc₁ : OfferConstraints (db.withReservations xs) := hc.frame rfl rfl
      rw [ih hc₁ (fun l hl => (htail l hl).1.frame rfl rfl) hnd.2]
      refine forall₂_congr (fun l hl => ?_)
      have hbatches : (db.withReservations xs).batches = db.batches := rfl
      rw [← poolCapacity_congr hbatches (hkeep l (htail l hl).1 (htail l hl).2)]
      rfl
    simp only [List.foldlM_cons, bind_eq_ok, List.forall_mem_cons]
    constructor
    · rintro ⟨db', db₁, hok, hloop⟩
      exact ⟨(reserveBusinessLine_returns hc hhead).mp ⟨db₁, hok⟩, (hrest hok).mp ⟨db', hloop⟩⟩
    · rintro ⟨hcap, hcaps⟩
      obtain ⟨db₁, hok⟩ := (reserveBusinessLine_returns hc hhead).mpr hcap
      obtain ⟨db', hloop⟩ := (hrest hok).mpr hcaps
      exact ⟨db', db₁, hok, hloop⟩

/-- All lines of a loop that returns could be reserved before the loop. -/
theorem servable_of_loop {lines : List OrderLine}
    (h : lines.foldlM (reserveBusinessLine rt) db = .ok db') :
    ∀ l ∈ lines, ∃ o, Servable db l o := by
  induction lines generalizing db with
  | nil => simp
  | cons line lines ih =>
    simp only [List.foldlM_cons, bind_eq_ok] at h
    obtain ⟨db₁, hhead, hloop⟩ := h
    obtain ⟨o, ho⟩ := servable_of_ok hhead
    obtain ⟨xs, rfl, -⟩ := reserve_share ((reserveBusinessLine_eq_ok ho).mp hhead)
    refine List.forall_mem_cons.mpr ⟨⟨o, ho⟩, fun l hl => ?_⟩
    obtain ⟨o', ho'⟩ := ih hloop l hl
    exact ⟨o', ho'.frame rfl rfl⟩

/-- The offers of lines that may be reserved. -/
theorem exists_offers {lines : List OrderLine} (h : ∀ l ∈ lines, ∃ o, Servable db l o) :
    ∃ offer : OrderLine → CommercialPrice, ∀ l ∈ lines, Servable db l (offer l) := by
  have hall : ∀ l : OrderLine, ∃ o, l ∈ lines → Servable db l o := by
    intro l
    by_cases hl : l ∈ lines
    · obtain ⟨o, ho⟩ := h l hl
      exact ⟨o, fun _ => ho⟩
    · exact ⟨⟨0, 0, none, .business, "", true, []⟩, fun hmem => absurd hmem hl⟩
  choose offer hoffer using hall
  exact ⟨offer, hoffer⟩

/-- The loop gives every line the shares its pool has for it before the loop. -/
theorem reserveBusinessLines_own (hc : OfferConstraints db) {offer : OrderLine → CommercialPrice}
    {lines : List OrderLine} (hserv : ∀ l ∈ lines, Servable db l (offer l))
    (hnd : (lines.map OrderLine.commercialOfferId).Nodup)
    (hok : lines.foldlM (reserveBusinessLine rt) db = .ok db') :
    ∃ xs, db' = db.withReservations xs ∧ FromOwnPools rt db offer lines xs := by
  induction lines generalizing db with
  | nil =>
    simp only [List.foldlM_nil, pure_eq_ok] at hok
    exact ⟨[], hok.symm, ⟨by simp, by simp, List.nodup_nil⟩⟩
  | cons line lines ih =>
    rw [List.map_cons, List.nodup_cons] at hnd
    have htail : ∀ l ∈ lines, Servable db l (offer l) ∧ line.commercialOfferId ≠ l.commercialOfferId :=
      fun l hl => ⟨hserv l (List.mem_cons_of_mem _ hl),
        fun he => hnd.1 (List.mem_map.mpr ⟨l, hl, he.symm⟩)⟩
    simp only [List.foldlM_cons, bind_eq_ok] at hok
    obtain ⟨db₁, hhead, hloop⟩ := hok
    obtain ⟨xs, rfl, hxs, hkeep⟩ :=
      reserveBusinessLine_step hc (hserv line (List.mem_cons_self ..)) hhead
    have hc₁ : OfferConstraints (db.withReservations xs) := hc.frame rfl rfl
    obtain ⟨ys, rfl, hys⟩ := ih hc₁ (fun l hl => (htail l hl).1.frame rfl rfl) hnd.2 hloop
    have hbatches : (db.withReservations xs).batches = db.batches := rfl
    -- the rest finds its pools, and so its shares, as they were
    have hshare : ∀ l ∈ lines, ∀ b ∈ db.batches,
        (db.withReservations xs).fefoShare rt.now
            (listOrderableBatchesForOffer rt db (offer l) .eur) l.quantityInUnits b
          = db.fefoShare rt.now (listOrderableBatchesForOffer rt db (offer l) .eur)
              l.quantityInUnits b := fun l hl b hb =>
      fefoShare_congr hbatches (hkeep l (htail l hl).1 (htail l hl).2) _ hb
    refine ⟨xs ++ ys, Db.withReservations_append _ _ _, fun x hx => ?_, fun l hl b hb hpos => ?_, ?_⟩
    · rcases List.mem_append.mp hx with hx | hx
      · obtain ⟨hline, hown⟩ := hxs.own x hx
        exact ⟨List.mem_singleton.mp hline ▸ List.mem_cons_self .., hown⟩
      · obtain ⟨hline, huntil, b, hb, hpk, hq, hown⟩ := hys.own x hx
        exact ⟨List.mem_cons_of_mem _ hline, huntil, b, hb, hpk, hq,
          hown.trans (hshare x.line hline b hb)⟩
    · rcases List.mem_cons.mp hl with rfl | hl
      · obtain ⟨x, hx, hown⟩ := hxs.all l (List.mem_singleton_self l) b hb hpos
        exact ⟨x, List.mem_append_left _ hx, hown⟩
      · rw [← hshare l hl b hb] at hpos ⊢
        obtain ⟨x, hx, hown⟩ := hys.all l hl b hb hpos
        exact ⟨x, List.mem_append_right _ hx, hown⟩
    · rw [List.map_append]
      refine hxs.single.append hys.single (List.disjoint_left.mpr (fun e hhead hrest => ?_))
      -- the rest is for other offers
      obtain ⟨x, hx, rfl⟩ := List.mem_map.mp hhead
      obtain ⟨y, hy, hyx⟩ := List.mem_map.mp hrest
      have hxl := List.mem_singleton.mp (hxs.own x hx).1
      refine (htail y.line (hys.own y hy).1).2 ?_
      rw [← hxl]
      exact (Prod.mk.inj hyx).1.symm

end SwedeSweets
