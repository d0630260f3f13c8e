import SwedeSweets.Business.Placement
import SwedeSweets.Invariants.OrderLines

namespace SwedeSweets

open Relational Fallible

/-!
# Editing the lines of a placed order

An edit groups the lines there are and the lines asked for by offer, and keeps, resizes,
removes and adds lines accordingly (`replaceLines`).  `replaceLines_edited` says what the line
table and the allocations are afterwards, `replaceLines_returns` when it goes through.
-/

/-! ### Grouping by offer -/

/-- The existing lines can be grouped by offer iff no two of them are for one offer. -/
theorem existingByOfferId_returns {lines : List OrderLine} :
    (∃ existing, existingByOfferId lines = .ok existing) ↔
      (lines.map OrderLine.commercialOfferId).Nodup := by
  -- generalized over the offers seen so far, which no later line may name
  have key : ∀ (lines : List OrderLine) (seen : List (ℕ × OrderLine)),
      (∃ existing, lines.foldlM addExisting seen = .ok existing) ↔
        (lines.map OrderLine.commercialOfferId).Nodup
          ∧ ∀ l ∈ lines, l.commercialOfferId ∉ seen.map Prod.fst := by
    intro lines
    induction lines with
    | nil => simp
    | cons l ls ih =>
      intro seen
      simp only [List.foldlM_cons, addExisting, bind_eq_ok, require_eq_ok, exists_const,
        pure_eq_ok, List.map_cons, List.nodup_cons, List.forall_mem_cons]
      constructor
      · rintro ⟨existing, seen', ⟨hl, rfl⟩, hrest⟩
        obtain ⟨hnd, hls⟩ := (ih _).mp ⟨existing, hrest⟩
        simp only [List.map_append, List.mem_append, not_or] at hls
        refine ⟨⟨fun hmem => ?_, hnd⟩, hl, fun x hx => (hls x hx).1⟩
        obtain ⟨x, hx, hxl⟩ := List.mem_map.mp hmem
        exact (hls x hx).2 (by simp [hxl])
      · rintro ⟨⟨hnew, hnd⟩, hl, hls⟩
        obtain ⟨existing, hrest⟩ := (ih (seen ++ [(l.commercialOfferId, l)])).mpr ⟨hnd, fun x hx => by
          simp only [List.map_append, List.mem_append, not_or]
          refine ⟨hls x hx, fun hmem => hnew (List.mem_map.mpr ⟨x, hx, ?_⟩)⟩
          simpa using hmem⟩
        exact ⟨existing, _, ⟨hl, rfl⟩, hrest⟩
  simpa [existingByOfferId] using key lines []

/-- The incoming lines can be grouped by offer iff each is for an offer of its product and of
    the order's channel, and no two are for one offer. -/
theorem incomingByOfferId_eq_ok {o : Order} {lines : List ResolvedOrderLine}
    {incoming : List (ℕ × ResolvedOrderLine)} :
    incomingByOfferId o lines = .ok incoming ↔
      (∀ line ∈ lines, line.commercialOffer.productId = line.product.pk
        ∧ line.commercialOffer.channel = o.channel)
      ∧ (lines.map (fun line => line.commercialOffer.pk)).Nodup
      ∧ incoming = lines.map (fun line => (line.commercialOffer.pk, line)) := by
  -- generalized over the lines seen so far
  have key : ∀ (lines : List ResolvedOrderLine) (seen : List (ℕ × ResolvedOrderLine)),
      lines.foldlM (addIncoming o) seen = .ok incoming ↔
        (∀ line ∈ lines, line.commercialOffer.productId = line.product.pk
          ∧ line.commercialOffer.channel = o.channel)
        ∧ ((lines.map (fun line => line.commercialOffer.pk)).Nodup
          ∧ ∀ line ∈ lines, line.commercialOffer.pk ∉ seen.map Prod.fst)
        ∧ incoming = seen ++ lines.map (fun line => (line.commercialOffer.pk, line)) := by
    intro lines
    induction lines with
    | nil =>
      intro seen
      simp only [List.foldlM_nil, pure_eq_ok]
      simp [eq_comm]
    | cons line lines ih =>
      intro seen
      simp only [List.foldlM_cons, addIncoming, bind_eq_ok, validateCommercialOffer_eq_ok,
        require_eq_ok, exists_const, pure_eq_ok, List.map_cons, List.nodup_cons,
        List.forall_mem_cons]
      constructor
      · rintro ⟨seen', ⟨k, ⟨hproduct, hch, rfl⟩, hnew, rfl⟩, hrest⟩
        obtain ⟨hvalid, ⟨hnd, hfresh⟩, rfl⟩ := (ih _).mp hrest
        simp only [List.map_append, List.mem_append, not_or] at hfresh
        refine ⟨⟨⟨hproduct, hch⟩, hvalid⟩,
          ⟨⟨fun hmem => ?_, hnd⟩, hnew, fun x hx => (hfresh x hx).1⟩, by simp⟩
        obtain ⟨x, hx, hxl⟩ := List.mem_map.mp hmem
        exact (hfresh x hx).2 (by simp [hxl])
      · rintro ⟨⟨⟨hproduct, hch⟩, hvalid⟩, ⟨⟨hne, hnd⟩, hnew, hfresh⟩, rfl⟩
        refine ⟨_, ⟨_, ⟨hproduct, hch, rfl⟩, hnew, rfl⟩, (ih _).mpr ⟨hvalid, ⟨hnd, fun x hx => ?_⟩, ?_⟩⟩
        · simp only [List.map_append, List.mem_append, not_or]
          refine ⟨hfresh x hx, fun hmem => hne (List.mem_map.mpr ⟨x, hx, ?_⟩)⟩
          simpa using hmem
        · simp
  simpa [incomingByOfferId] using key lines []

/-! ### What an edit writes -/

/-- The keys of the lines that are not asked for again. -/
def removedLineIds (db : Db) (k : ℕ) (lines : List ResolvedOrderLine) : List ℕ :=
  (((db.orderLines k).map (fun l => (l.commercialOfferId, l))).filter (fun e =>
    ((lines.map (fun line => (line.commercialOffer.pk, line))).lookup e.1).isNone)).map
      (fun e => e.2.pk)

/-- The lines asked for that no line there is is for. -/
def addedLines (db : Db) (k : ℕ) (lines : List ResolvedOrderLine) : List ResolvedOrderLine :=
  ((lines.map (fun line => (line.commercialOffer.pk, line))).filter (fun e =>
    (((db.orderLines k).map (fun l => (l.commercialOfferId, l))).lookup e.1).isNone)).map Prod.snd

/-- The line table and the allocations after an edit of the order `k`. -/
structure Edited (k : ℕ) (lines : List ResolvedOrderLine) (db db' : Db) : Prop where
  /-- A line is an old one with the quantity asked for, or a new one for an offer no old line
      is for. -/
  line : ∀ l' ∈ db'.orderLines k, ∃ line ∈ lines, l'.commercialOfferId = line.commercialOffer.pk
    ∧ l'.quantityInUnits = line.quantityInUnits.toNat
    ∧ ((∃ l ∈ db.orderLines k, l.SameChoice l')
      ∨ (db.lines.next ≤ l'.pk ∧ l'.productId = line.product.pk
        ∧ ∀ l ∈ db.orderLines k, l.commercialOfferId ≠ l'.commercialOfferId))
  served : ∀ line ∈ lines, ∃ l' ∈ db'.orderLines k, l'.commercialOfferId = line.commercialOffer.pk
  distinct : ((db'.orderLines k).map OrderLine.commercialOfferId).Nodup
  /-- An old line keeps its price, whatever price is asked. -/
  kept : ∀ l ∈ db.orderLines k, ∀ l' ∈ db'.orderLines k, l'.commercialOfferId = l.commercialOfferId →
    l'.unitPriceSnapshot = l.unitPriceSnapshot
  /-- A new line is at the price asked. -/
  priced : ∀ line ∈ addedLines db k lines, ∀ l' ∈ db'.orderLines k,
    l'.commercialOfferId = line.commercialOffer.pk → l'.unitPriceSnapshot = line.unitPriceSnapshot
  products : db'.products = db.products
  prices : db'.commercialPrices = db.commercialPrices
  batches : db'.batches = db.batches
  allocations : db'.allocations
    = db.allocations.delete (fun a => (removedLineIds db k lines).contains a.orderLineId)

/-- New rows carry the offers of the lines they are for. -/
theorem offers_made (n : ℕ) (xs : List NewOrderLine) :
    (Table.made n (xs.map NewOrderLine.row)).map OrderLine.commercialOfferId
      = xs.map NewOrderLine.commercialOfferId :=
  Table.map_made_map (fun _ _ => rfl) n xs

section

variable {db db' : Db} {o : Order} {lines : List ResolvedOrderLine}

/-- The lines there are that are asked for again, with the quantity asked for. -/
def retainedLines (db : Db) (k : ℕ) (lines : List ResolvedOrderLine) : List (OrderLine × ℤ) :=
  (lines.map (fun line => (line.commercialOffer.pk, line))).filterMap (fun e =>
    (((db.orderLines k).map (fun l => (l.commercialOfferId, l))).lookup e.1).map
      (fun l => (l, e.2.quantityInUnits)))

/-- A retained line is a line of the order. -/
theorem orderLine_of_retained {k : ℕ} {e : OrderLine × ℤ} (he : e ∈ retainedLines db k lines) :
    e.1 ∈ db.orderLines k := by
  obtain ⟨i, -, hi⟩ := List.mem_filterMap.mp he
  obtain ⟨l, hlookup, rfl⟩ := Option.map_eq_some_iff.mp hi
  obtain ⟨pre, post, hsplit, -⟩ := List.lookup_eq_some_iff.mp hlookup
  have hmem : (i.1, l) ∈ (db.orderLines k).map (fun l => (l.commercialOfferId, l)) := by
    rw [hsplit]; simp
  obtain ⟨x, hx, hxl⟩ := List.mem_map.mp hmem
  exact (Prod.mk.inj hxl).2 ▸ hx

/-- A line is retained when it is asked for again. -/
theorem mem_retainedLines {k : ℕ} (hex : ((db.orderLines k).map OrderLine.commercialOfferId).Nodup)
    {e : OrderLine × ℤ} :
    e ∈ retainedLines db k lines ↔ ∃ line ∈ lines, e.1 ∈ db.orderLines k
      ∧ e.1.commercialOfferId = line.commercialOffer.pk ∧ e.2 = line.quantityInUnits := by
  unfold retainedLines
  simp only [List.mem_filterMap, List.mem_map, Option.map_eq_some_iff]
  constructor
  · rintro ⟨-, ⟨line, hline, rfl⟩, l, hl, rfl⟩
    obtain ⟨hl, hoffer⟩ := (Dict.lookup_keyed hex).mp hl
    exact ⟨line, hline, hl, hoffer, rfl⟩
  · rintro ⟨line, hline, hl, hoffer, hq⟩
    exact ⟨_, ⟨line, hline, rfl⟩, e.1, (Dict.lookup_keyed hex).mpr ⟨hl, hoffer⟩, by rw [← hq]⟩

/-- Retained lines are for different offers. -/
theorem nodup_retainedLines {k : ℕ} (hex : ((db.orderLines k).map OrderLine.commercialOfferId).Nodup)
    (hnd : (lines.map (fun line => line.commercialOffer.pk)).Nodup) :
    ((retainedLines db k lines).map (fun e => e.1.commercialOfferId)).Nodup := by
  refine Dict.nodup_filterMap (Prod.fst : ℕ × ResolvedOrderLine → ℕ)
    (fun e : OrderLine × ℤ => e.1.commercialOfferId) (fun e p hp => ?_) (by rwa [List.map_map])
  obtain ⟨l, hl, rfl⟩ := Option.map_eq_some_iff.mp hp
  exact ((Dict.lookup_keyed hex).mp hl).2

/-- A line is removed when it is not asked for again. -/
theorem mem_removedLineIds {k pk : ℕ} :
    pk ∈ removedLineIds db k lines ↔ ∃ l ∈ db.orderLines k, l.pk = pk
      ∧ ∀ line ∈ lines, line.commercialOffer.pk ≠ l.commercialOfferId := by
  unfold removedLineIds
  simp only [List.mem_map, List.mem_filter, Dict.lookup_keyed_isNone]
  constructor
  · rintro ⟨-, ⟨⟨l, hl, rfl⟩, hnone⟩, rfl⟩
    exact ⟨l, hl, rfl, hnone⟩
  · rintro ⟨l, hl, rfl, hnone⟩
    exact ⟨_, ⟨⟨l, hl, rfl⟩, hnone⟩, rfl⟩

/-- A line is added when the order has none for its offer. -/
theorem mem_addedLines {k : ℕ} {line : ResolvedOrderLine} :
    line ∈ addedLines db k lines ↔ line ∈ lines
      ∧ ∀ l ∈ db.orderLines k, l.commercialOfferId ≠ line.commercialOffer.pk := by
  unfold addedLines
  simp only [List.mem_map, List.mem_filter, Dict.lookup_keyed_isNone]
  constructor
  · rintro ⟨-, ⟨⟨line, hline, rfl⟩, hnone⟩, rfl⟩
    exact ⟨hline, hnone⟩
  · rintro ⟨hline, hnone⟩
    exact ⟨_, ⟨⟨line, hline, rfl⟩, hnone⟩, rfl⟩

/-- A line that is not added is for the offer of an old one. -/
theorem exists_orderLine_of_notMem_addedLines {k : ℕ} {line : ResolvedOrderLine}
    (hline : line ∈ lines) (h : line ∉ addedLines db k lines) :
    ∃ l ∈ db.orderLines k, l.commercialOfferId = line.commercialOffer.pk := by
  by_contra hnone
  push Not at hnone
  exact h (mem_addedLines.mpr ⟨hline, hnone⟩)

/-- The lines added are among those asked for, in this order. -/
theorem addedLines_sublist (k : ℕ) : (addedLines db k lines).Sublist lines := by
  have hmap := (List.filter_sublist (p := fun e =>
    (((db.orderLines k).map (fun l => (l.commercialOfferId, l))).lookup e.1).isNone)
    (l := lines.map (fun line => (line.commercialOffer.pk, line)))).map Prod.snd
  rwa [List.map_map, show Prod.snd ∘ (fun line : ResolvedOrderLine => (line.commercialOffer.pk, line))
    = id from rfl, List.map_id] at hmap

/-- What `replaceLines` does, in three parts. -/
theorem replaceLines_eq_ok_iff :
    replaceLines db o (lines.map (fun line => (line.commercialOffer.pk, line)))
      ((db.orderLines o.pk).map (fun l => (l.commercialOfferId, l))) = .ok db' ↔
    ∃ retained, (retainedLines db o.pk lines).mapM (fun e => e.1.resize e.2) = .ok retained ∧
      createOrderLines (Db.deleteLines { db with lines := retained.foldl Table.put db.lines }
        (removedLineIds db o.pk lines)) o (addedLines db o.pk lines) = .ok db' := by
  unfold replaceLines
  rw [bind_eq_ok]
  rfl

/-- The lines that stay, with the quantity asked for. -/
structure Retained (db : Db) (k : ℕ) (lines : List ResolvedOrderLine) (retained : List OrderLine) :
    Prop where
  mem : ∀ l', l' ∈ retained ↔ ∃ line ∈ lines, ∃ l ∈ db.orderLines k,
    l.commercialOfferId = line.commercialOffer.pk ∧ l.resize line.quantityInUnits = .ok l'
  old : ∀ l' ∈ retained, ∃ l ∈ db.orderLines k, l.SameChoice l'
  again : ∀ l ∈ db.orderLines k, ∀ line ∈ lines, line.commercialOffer.pk = l.commercialOfferId →
    ∃ l' ∈ retained, l.SameChoice l'
  distinct : (retained.map OrderLine.commercialOfferId).Nodup
  pks : (retained.map OrderLine.pk).Nodup

/-- Resizing the retained lines retains them. -/
theorem retained_of_mapM {k : ℕ} {retained : List OrderLine}
    (hex : ((db.orderLines k).map OrderLine.commercialOfferId).Nodup)
    (hnd : (lines.map (fun line => line.commercialOffer.pk)).Nodup)
    (hret : (retainedLines db k lines).mapM (fun e => e.1.resize e.2) = .ok retained) :
    Retained db k lines retained := by
  -- each resized line belongs to one that is asked for
  have hmem : ∀ l', l' ∈ retained ↔ ∃ line ∈ lines, ∃ l ∈ db.orderLines k,
      l.commercialOfferId = line.commercialOffer.pk ∧ l.resize line.quantityInUnits = .ok l' := by
    intro l'
    rw [mem_mapM hret]
    constructor
    · rintro ⟨⟨l, q⟩, he, hl'⟩
      obtain ⟨line, hline, hl, hoffer, rfl⟩ := (mem_retainedLines hex).mp he
      exact ⟨line, hline, l, hl, hoffer, hl'⟩
    · rintro ⟨line, hline, l, hl, hoffer, hl'⟩
      exact ⟨(l, line.quantityInUnits),
        (mem_retainedLines hex).mpr ⟨line, hline, hl, hoffer, rfl⟩, hl'⟩
  have hold : ∀ l' ∈ retained, ∃ l ∈ db.orderLines k, l.SameChoice l' := by
    intro l' hl'
    obtain ⟨line, -, l, hl, -, hresize⟩ := (hmem l').mp hl'
    exact ⟨l, hl, (resize_sameChoice hresize).1⟩
  have hoffers : (retained.map OrderLine.commercialOfferId).Nodup :=
    nodup_of_mapM hret (fun e l' hl' => (resize_sameChoice hl').1.offer)
      (nodup_retainedLines hex hnd)
  refine ⟨hmem, hold, fun l hl line hline hoffer => ?_, hoffers, ?_⟩
  · obtain ⟨l', hl'⟩ := returns_of_mapM hret (l, line.quantityInUnits)
      ((mem_retainedLines hex).mpr ⟨line, hline, hl, hoffer.symm, rfl⟩)
    exact ⟨l', (hmem l').mpr ⟨line, hline, l, hl, hoffer.symm, hl'⟩, (resize_sameChoice hl').1⟩
  · -- versions of one line are for one offer
    refine (List.nodup_map_iff_inj_on (List.Nodup.of_map _ hoffers)).mpr (fun x hx y hy hxy => ?_)
    obtain ⟨l, hl, hsame⟩ := hold x hx
    obtain ⟨m, hm, hsame'⟩ := hold y hy
    have heq : l = m := Table.eq_of_pk_eq (t := db.lines) (Db.mem_orderLines.mp hl).1
      (Db.mem_orderLines.mp hm).1 (hsame.pk.symm.trans (hxy.trans hsame'.pk))
    exact List.inj_on_of_nodup_map hoffers hx hy
      (hsame.offer.trans ((congrArg OrderLine.commercialOfferId heq).trans hsame'.offer.symm))

/-- After an edit an order has the lines that stay and the new ones. -/
theorem mem_orderLines_edited {k : ℕ} {retained : List OrderLine} {xs : List NewOrderLine}
    (hR : Retained db k lines retained) (hxs : ∀ x ∈ xs, x.orderId = k) (l' : OrderLine) :
    l' ∈ (({ Db.deleteLines { db with lines := retained.foldl Table.put db.lines }
        (removedLineIds db k lines) with
      lines := (Db.deleteLines { db with lines := retained.foldl Table.put db.lines }
        (removedLineIds db k lines)).lines.insertAll (xs.map NewOrderLine.row) } : Db)).orderLines k
      ↔ l' ∈ retained ∨ l' ∈ Table.made db.lines.next (xs.map NewOrderLine.row) := by
  have hnext : (Db.deleteLines { db with lines := retained.foldl Table.put db.lines }
      (removedLineIds db k lines)).lines.next = db.lines.next :=
    Table.next_foldl_put db.lines retained
  -- resized lines overwrite old ones
  have hput : ∀ x ∈ retained, ∃ y ∈ db.lines, Row.pk y = Row.pk x := by
    intro x hx
    obtain ⟨l, hl, hsame⟩ := hR.old x hx
    exact ⟨l, (Db.mem_orderLines.mp hl).1, hsame.pk.symm⟩
  rw [Db.mem_orderLines]
  show l' ∈ Table.insertAll _ _ ∧ _ ↔ _
  rw [Table.mem_insertAll, hnext]
  show (l' ∈ (retained.foldl Table.put db.lines).delete _ ∨ _) ∧ _ ↔ _
  rw [Table.mem_delete, Table.mem_foldl_put hput hR.pks, ← Bool.not_eq_true,
    List.contains_iff_mem, mem_removedLineIds]
  constructor
  · rintro ⟨⟨hl' | ⟨hl', hnot⟩, hkept⟩ | hmade, horder⟩
    · exact Or.inl hl'
    · -- a line that is not asked for again is removed
      exfalso
      have hl' : l' ∈ db.orderLines k := Db.mem_orderLines.mpr ⟨hl', horder⟩
      refine hkept ⟨l', hl', rfl, fun line hline hoffer => ?_⟩
      obtain ⟨x, hx, hsame⟩ := hR.again l' hl' line hline hoffer
      exact hnot x hx hsame.pk.symm
    · exact Or.inr hmade
  · rintro (hl' | hmade)
    · obtain ⟨l, hl, hsame⟩ := hR.old l' hl'
      obtain ⟨line, hline, m, hm, hoffer, hresize⟩ := (hR.mem l').mp hl'
      refine ⟨Or.inl ⟨Or.inl hl', ?_⟩, hsame.order.trans (Db.mem_orderLines.mp hl).2⟩
      rintro ⟨y, hy, hpk, hnone⟩
      have heq : m = y := Table.eq_of_pk_eq (t := db.lines) (Db.mem_orderLines.mp hm).1
        (Db.mem_orderLines.mp hy).1 ((resize_sameChoice hresize).1.pk.symm.trans hpk.symm)
      exact hnone line hline (hoffer.symm.trans (congrArg OrderLine.commercialOfferId heq))
    · refine ⟨Or.inr hmade, ?_⟩
      obtain ⟨x, hx, m, rfl⟩ := Table.mem_made_map hmade
      exact hxs x hx

/-- The line is new and is what was asked for. -/
structure OrderLine.IsFor (l : OrderLine) (line : ResolvedOrderLine) : Prop where
  offer : l.commercialOfferId = line.commercialOffer.pk
  product : l.productId = line.product.pk
  quantity : l.quantityInUnits = line.quantityInUnits.toNat
  price : l.unitPriceSnapshot = line.unitPriceSnapshot

/-- After an edit the order has the lines that stay and those that were made. -/
structure Rewritten (k : ℕ) (lines : List ResolvedOrderLine) (db db' : Db)
    (retained made : List OrderLine) : Prop where
  stays : Retained db k lines retained
  mem : ∀ l', l' ∈ db'.orderLines k ↔ l' ∈ retained ∨ l' ∈ made
  fresh : ∀ l' ∈ made, db.lines.next ≤ l'.pk ∧ ∃ line ∈ addedLines db k lines, l'.IsFor line
  offers : made.map OrderLine.commercialOfferId
    = (addedLines db k lines).map (fun line => line.commercialOffer.pk)

namespace Rewritten

variable {k : ℕ} {retained made : List OrderLine}

/-- A line of the edited order is a version of an old one or a new one, for a line asked for. -/
theorem line (h : Rewritten k lines db db' retained made) {l' : OrderLine}
    (hl' : l' ∈ db'.orderLines k) : ∃ line ∈ lines, l'.commercialOfferId = line.commercialOffer.pk
      ∧ l'.quantityInUnits = line.quantityInUnits.toNat
      ∧ ((∃ l ∈ db.orderLines k, l.SameChoice l')
        ∨ (db.lines.next ≤ l'.pk ∧ l'.productId = line.product.pk
          ∧ ∀ l ∈ db.orderLines k, l.commercialOfferId ≠ l'.commercialOfferId)) := by
  rcases (h.mem l').mp hl' with hl' | hl'
  -- a version of an old line, or a new one
  · obtain ⟨line, hline, l, hl, hoffer, hresize⟩ := (h.stays.mem l').mp hl'
    obtain ⟨hsame, hq⟩ := resize_sameChoice hresize
    exact ⟨line, hline, hsame.offer.trans hoffer, hq, Or.inl ⟨l, hl, hsame⟩⟩
  · obtain ⟨hnew, line, hline, hfor⟩ := h.fresh l' hl'
    obtain ⟨hline, hnone⟩ := mem_addedLines.mp hline
    exact ⟨line, hline, hfor.offer, hfor.quantity,
      Or.inr ⟨hnew, hfor.product, fun l hl => hfor.offer ▸ hnone l hl⟩⟩

/-- Every line asked for is on the edited order. -/
theorem served (h : Rewritten k lines db db' retained made) {line : ResolvedOrderLine}
    (hline : line ∈ lines) :
    ∃ l' ∈ db'.orderLines k, l'.commercialOfferId = line.commercialOffer.pk := by
  by_cases hadded : line ∈ addedLines db k lines
  · have hoffer : line.commercialOffer.pk ∈ made.map OrderLine.commercialOfferId := by
      rw [h.offers]
      exact List.mem_map.mpr ⟨line, hadded, rfl⟩
    obtain ⟨l', hl', hoffer⟩ := List.mem_map.mp hoffer
    exact ⟨l', (h.mem l').mpr (Or.inr hl'), hoffer⟩
  · obtain ⟨l, hl, hoffer⟩ := exists_orderLine_of_notMem_addedLines hline hadded
    obtain ⟨l', hl', hsame⟩ := h.stays.again l hl line hline hoffer.symm
    exact ⟨l', (h.mem l').mpr (Or.inl hl'), hsame.offer.trans hoffer⟩

/-- A line that stays and one that was made are for different offers. -/
theorem disjoint (h : Rewritten k lines db db' retained made) {x y : OrderLine} (hx : x ∈ retained)
    (hy : y ∈ made) : x.commercialOfferId ≠ y.commercialOfferId := by
  intro heq
  obtain ⟨l, hl, hsame⟩ := h.stays.old x hx
  obtain ⟨-, line, hline, hfor⟩ := h.fresh y hy
  exact (mem_addedLines.mp hline).2 l hl (hsame.offer.symm.trans (heq.trans hfor.offer))

/-- The lines of the edited order are for different offers. -/
theorem distinct (h : Rewritten k lines db db' retained made)
    (hnd : (lines.map (fun line => line.commercialOffer.pk)).Nodup) :
    ((db'.orderLines k).map OrderLine.commercialOfferId).Nodup := by
  have hmade : (made.map OrderLine.commercialOfferId).Nodup := by
    rw [h.offers]
    exact hnd.sublist ((addedLines_sublist k).map _)
  refine (List.nodup_map_iff_inj_on (List.Nodup.of_map _ (Table.select_nodup_pk _ _))).mpr ?_
  intro x hx y hy heq
  rcases (h.mem x).mp hx with hx | hx <;> rcases (h.mem y).mp hy with hy | hy
  · exact List.inj_on_of_nodup_map h.stays.distinct hx hy heq
  · exact absurd heq (h.disjoint hx hy)
  · exact absurd heq.symm (h.disjoint hy hx)
  · exact List.inj_on_of_nodup_map hmade hx hy heq

/-- A line that stays keeps its price. -/
theorem kept (h : Rewritten k lines db db' retained made)
    (hex : ((db.orderLines k).map OrderLine.commercialOfferId).Nodup) {l l' : OrderLine}
    (hl : l ∈ db.orderLines k) (hl' : l' ∈ db'.orderLines k)
    (hoffer : l'.commercialOfferId = l.commercialOfferId) :
    l'.unitPriceSnapshot = l.unitPriceSnapshot := by
  rcases (h.mem l').mp hl' with hl' | hl'
  · obtain ⟨line, -, m, hm, -, hresize⟩ := (h.stays.mem l').mp hl'
    obtain ⟨hq, rfl⟩ := OrderLine.resize_eq_ok.mp hresize
    have heq : m = l := List.inj_on_of_nodup_map hex hm hl hoffer
    exact heq ▸ rfl
  · obtain ⟨-, line, hline, hfor⟩ := h.fresh l' hl'
    exact absurd (hoffer.symm.trans hfor.offer) ((mem_addedLines.mp hline).2 l hl)

/-- A line that is new has the price of the line asked for. -/
theorem priced (h : Rewritten k lines db db' retained made)
    (hnd : (lines.map (fun line => line.commercialOffer.pk)).Nodup) {line : ResolvedOrderLine}
    (hline : line ∈ addedLines db k lines) {l' : OrderLine} (hl' : l' ∈ db'.orderLines k)
    (hoffer : l'.commercialOfferId = line.commercialOffer.pk) :
    l'.unitPriceSnapshot = line.unitPriceSnapshot := by
  obtain ⟨hmem, hnone⟩ := mem_addedLines.mp hline
  rcases (h.mem l').mp hl' with hl' | hl'
  · obtain ⟨l, hl, hsame⟩ := h.stays.old l' hl'
    exact absurd (hsame.offer.symm.trans hoffer) (hnone l hl)
  · obtain ⟨-, asked, hasked, hfor⟩ := h.fresh l' hl'
    have heq : asked = line := List.inj_on_of_nodup_map hnd (mem_addedLines.mp hasked).1 hmem
      (hfor.offer.symm.trans hoffer)
    exact heq ▸ hfor.price

end Rewritten

/-- **Edit.** What replacing the lines of an order writes. -/
theorem replaceLines_edited
    (hex : ((db.orderLines o.pk).map OrderLine.commercialOfferId).Nodup)
    (hnd : (lines.map (fun line => line.commercialOffer.pk)).Nodup)
    (h : replaceLines db o (lines.map (fun line => (line.commercialOffer.pk, line)))
      ((db.orderLines o.pk).map (fun l => (l.commercialOfferId, l))) = .ok db') :
    Edited o.pk lines db db' := by
  obtain ⟨retained, hret, hcreate⟩ := replaceLines_eq_ok_iff.mp h
  have hR := retained_of_mapM hex hnd hret
  obtain ⟨-, xs, hxs, hdb⟩ := createOrderLines_of hcreate
  have hof : ∀ x ∈ xs, ∃ line ∈ addedLines db o.pk lines, x.Of o line := forall₂_right hxs
  -- the lines are those retained and those made
  have hrewritten : Rewritten o.pk lines db db' retained
      (Table.made db.lines.next (xs.map NewOrderLine.row)) := by
    refine ⟨hR, ?_, fun l' hl' => ⟨Table.le_pk_of_made hl', ?_⟩, ?_⟩
    · rw [hdb]
      exact mem_orderLines_edited hR (fun x hx => (hof x hx).choose_spec.2.order)
    · obtain ⟨d, hd, m, rfl⟩ := Table.mem_made hl'
      obtain ⟨x, hx, rfl⟩ := List.mem_map.mp hd
      obtain ⟨line, hline, hx⟩ := hof x hx
      exact ⟨line, hline, hx.offer, hx.product, hx.quantity, hx.price⟩
    · rw [offers_made]
      exact map_eq_of_forall₂ hxs (fun line x hx => hx.offer)
  subst hdb
  exact
    { line := fun l' hl' => hrewritten.line hl'
      served := fun line hline => hrewritten.served hline
      distinct := hrewritten.distinct hnd
      kept := fun l hl l' hl' hoffer => hrewritten.kept hex hl hl' hoffer
      priced := fun line hline l' hl' hoffer => hrewritten.priced hnd hline hl' hoffer
      products := rfl
      prices := rfl
      batches := rfl
      allocations := rfl }

/-- The table admits the quantity of each line that an edit which goes through asks for. -/
theorem quantity_of_replaceLines
    (hex : ((db.orderLines o.pk).map OrderLine.commercialOfferId).Nodup)
    (h : replaceLines db o (lines.map (fun line => (line.commercialOffer.pk, line)))
      ((db.orderLines o.pk).map (fun l => (l.commercialOfferId, l))) = .ok db')
    {line : ResolvedOrderLine} (hline : line ∈ lines) : LineQuantity line.quantityInUnits := by
  obtain ⟨retained, hret, hcreate⟩ := replaceLines_eq_ok_iff.mp h
  by_cases hadded : line ∈ addedLines db o.pk lines
  -- the line is new
  · unfold createOrderLines at hcreate
    simp only [bind_eq_ok, pure_eq_ok] at hcreate
    obtain ⟨-, -, rows, hrows, -⟩ := hcreate
    obtain ⟨x, hx⟩ := returns_of_mapM hrows line hadded
    exact (newOrderLine_eq_ok hx).2.quantity
  · -- the line is a new size of an old one
    obtain ⟨l, hl, hoffer⟩ := exists_orderLine_of_notMem_addedLines hline hadded
    obtain ⟨l', hl'⟩ := returns_of_mapM hret (l, line.quantityInUnits)
      ((mem_retainedLines hex).mpr ⟨line, hline, hl, hoffer, rfl⟩)
    exact (OrderLine.resize_eq_ok.mp hl').1

/-- Whether lines can be replaced does not depend on the rest of the database. -/
theorem replaceLines_of_ok {db₁ : Db} {incoming : List (ℕ × ResolvedOrderLine)}
    {existing : List (ℕ × OrderLine)} (h : replaceLines db o incoming existing = .ok db') :
    ∃ db₁', replaceLines db₁ o incoming existing = .ok db₁' := by
  unfold replaceLines createOrderLines at h ⊢
  simp only [bind_eq_ok, pure_eq_ok] at h ⊢
  obtain ⟨retained, hret, ks, hks, rows, hrows, -⟩ := h
  exact ⟨_, retained, hret, ks, hks, rows, hrows, rfl⟩

/-! ### In another order -/

section

variable {lines' : List ResolvedOrderLine}

/-- Whether lines can be created depends neither on the rest of the database nor on the order in
    which they come. -/
theorem createOrderLines_perm {db₁ : Db} (hperm : lines'.Perm lines)
    (h : createOrderLines db o lines = .ok db') : ∃ db₁', createOrderLines db₁ o lines' = .ok db₁' := by
  unfold createOrderLines at h ⊢
  simp only [bind_eq_ok, pure_eq_ok] at h ⊢
  obtain ⟨ks, hks, rows, hrows, -⟩ := h
  obtain ⟨ks', hks'⟩ := mapM_perm hperm hks
  obtain ⟨rows', hrows'⟩ := mapM_perm hperm hrows
  exact ⟨_, ks', hks', rows', hrows', rfl⟩

/-- Nor does it matter for an edit in which order the lines are asked for. -/
theorem replaceLines_perm (hperm : lines'.Perm lines)
    (h : replaceLines db o (lines.map (fun line => (line.commercialOffer.pk, line)))
      ((db.orderLines o.pk).map (fun l => (l.commercialOfferId, l))) = .ok db') :
    ∃ db'', replaceLines db o (lines'.map (fun line => (line.commercialOffer.pk, line)))
      ((db.orderLines o.pk).map (fun l => (l.commercialOfferId, l))) = .ok db'' := by
  obtain ⟨retained, hretained, hcreate⟩ := replaceLines_eq_ok_iff.mp h
  have hentries := hperm.map (fun line => (line.commercialOffer.pk, line))
  obtain ⟨retained', hretained'⟩ := mapM_perm (hentries.filterMap _) hretained
  obtain ⟨db'', hcreate'⟩ := createOrderLines_perm ((hentries.filter _).map Prod.snd) hcreate
  exact ⟨db'', replaceLines_eq_ok_iff.mpr ⟨retained', hretained', hcreate'⟩⟩

/-- The same lines are removed. -/
theorem removedLineIds_perm (k : ℕ) (hperm : lines'.Perm lines) :
    removedLineIds db k lines' = removedLineIds db k lines := by
  unfold removedLineIds
  refine congrArg (List.map _) (List.filter_congr (fun e _ => ?_))
  rw [Bool.eq_iff_iff, Dict.lookup_keyed_isNone, Dict.lookup_keyed_isNone]
  exact forall_congr' (fun line => by rw [hperm.mem_iff])

/-- Two lines that agree in what is sold, how much of it and at what price. -/
structure OrderLine.Alike (l l' : OrderLine) : Prop where
  offer : l'.commercialOfferId = l.commercialOfferId
  product : l'.productId = l.productId
  quantity : l'.quantityInUnits = l.quantityInUnits
  price : l'.unitPriceSnapshot = l.unitPriceSnapshot

/-- Each line that one edit leaves has its like among those the other leaves. -/
theorem Edited.alike {k : ℕ} {db₁ db₂ : Db} (h : Edited k lines db db₁) (h' : Edited k lines' db db₂)
    (hperm : lines'.Perm lines)
    (hex : ((db.orderLines k).map OrderLine.commercialOfferId).Nodup)
    (hnd : (lines.map (fun line => line.commercialOffer.pk)).Nodup) {l : OrderLine}
    (hl : l ∈ db₁.orderLines k) : ∃ l' ∈ db₂.orderLines k, l.Alike l' := by
  obtain ⟨line, hline, hoffer, hq, hold⟩ := h.line l hl
  obtain ⟨l', hl', hoffer'⟩ := h'.served line (hperm.mem_iff.mpr hline)
  obtain ⟨asked, hasked, hasked', hq', hold'⟩ := h'.line l' hl'
  -- both are for the line asked for under that offer
  have heq : asked = line := List.inj_on_of_nodup_map hnd (hperm.mem_iff.mp hasked) hline
    (hasked'.symm.trans hoffer')
  have hsame : l'.commercialOfferId = l.commercialOfferId := hoffer'.trans hoffer.symm
  refine ⟨l', hl', hsame, ?_, by rw [hq, hq', heq], ?_⟩
  · rcases hold with ⟨m, hm, hml⟩ | ⟨-, hproduct, hnone⟩ <;>
      rcases hold' with ⟨m', hm', hml'⟩ | ⟨-, hproduct', hnone'⟩
    · have hmm : m' = m := List.inj_on_of_nodup_map hex hm' hm
        (hml'.offer.symm.trans (hsame.trans hml.offer))
      rw [hml.product, hml'.product, hmm]
    · exact absurd (hml.offer.symm.trans hsame.symm) (hnone' m hm)
    · exact absurd (hml'.offer.symm.trans hsame) (hnone m' hm')
    · rw [hproduct, hproduct', heq]
  · rcases hold with ⟨m, hm, hml⟩ | ⟨-, -, hnone⟩
    · rw [h.kept m hm l hl hml.offer, h'.kept m hm l' hl' (hsame.trans hml.offer)]
    · have hadded : line ∈ addedLines db k lines :=
        mem_addedLines.mpr ⟨hline, fun m hm hm' => hnone m hm (hm'.trans hoffer.symm)⟩
      have hadded' : line ∈ addedLines db k lines' := mem_addedLines.mpr
        ⟨hperm.mem_iff.mpr hline, (mem_addedLines.mp hadded).2⟩
      rw [h.priced line hadded l hl hoffer, h'.priced line hadded' l' hl' hoffer']

end

/-- The offers of the lines an edit leaves, in the order of the lines' ids: those asked for
    again, then the new ones. -/
def offersAfterEdit (db : Db) (k : ℕ) (lines : List ResolvedOrderLine) : List ℕ :=
  ((db.orderLines k).map OrderLine.commercialOfferId).filter
      (fun offer => (lines.map (fun line => line.commercialOffer.pk)).contains offer)
    ++ (lines.map (fun line => line.commercialOffer.pk)).filter
      (fun offer => !((db.orderLines k).map OrderLine.commercialOfferId).contains offer)

/-- The offers of the lines added are those that the order has no line for. -/
theorem offers_addedLines (k : ℕ) :
    (addedLines db k lines).map (fun line => line.commercialOffer.pk)
      = (lines.map (fun line => line.commercialOffer.pk)).filter
          (fun offer => !((db.orderLines k).map OrderLine.commercialOfferId).contains offer) := by
  unfold addedLines
  rw [List.filter_map, List.map_map, List.map_map, List.filter_map]
  refine congrArg (List.map _) (List.filter_congr (fun line _ => ?_))
  rw [Bool.eq_iff_iff, Function.comp_apply, Dict.lookup_keyed_isNone]
  simp

/-- **Order of the lines.** After an edit the lines are for these offers, in this order. -/
theorem offers_edited
    (hex : ((db.orderLines o.pk).map OrderLine.commercialOfferId).Nodup)
    (hnd : (lines.map (fun line => line.commercialOffer.pk)).Nodup)
    (h : replaceLines db o (lines.map (fun line => (line.commercialOffer.pk, line)))
      ((db.orderLines o.pk).map (fun l => (l.commercialOfferId, l))) = .ok db') :
    (db'.orderLines o.pk).map OrderLine.commercialOfferId = offersAfterEdit db o.pk lines := by
  obtain ⟨retained, hret, hcreate⟩ := replaceLines_eq_ok_iff.mp h
  have hR := retained_of_mapM hex hnd hret
  obtain ⟨-, xs, hxs, rfl⟩ := createOrderLines_of hcreate
  -- saving the lines that stay changes neither whose they are nor what they are for
  have hkey : (retained.foldl Table.put db.lines).rows.map
        (fun l => (l.pk, l.orderId, l.commercialOfferId))
      = db.lines.rows.map (fun l => (l.pk, l.orderId, l.commercialOfferId)) := by
    refine Table.map_rows_foldl_put (fun l' hl' y hy hpk => ?_)
    obtain ⟨l, hl, hsame⟩ := hR.old l' hl'
    have heq : y = l := Table.eq_of_pk_eq (t := db.lines) hy (Db.mem_orderLines.mp hl).1
      (hpk.trans hsame.pk)
    rw [heq, hsame.pk, hsame.order, hsame.offer]
  have hold : (((retained.foldl Table.put db.lines).delete
        (fun l => (removedLineIds db o.pk lines).contains l.pk)).select
          (fun l => l.orderId = o.pk)).map OrderLine.commercialOfferId
      = ((db.orderLines o.pk).map OrderLine.commercialOfferId).filter
          (fun offer => (lines.map (fun line => line.commercialOffer.pk)).contains offer) := by
    have hkept : ∀ t : Table OrderLine, (t.delete
          (fun l => (removedLineIds db o.pk lines).contains l.pk)).select
            (fun l => decide (l.orderId = o.pk))
        = t.select ((fun x : ℕ × ℕ × ℕ => decide (x.2.1 = o.pk)
            && !(removedLineIds db o.pk lines).contains x.1)
          ∘ fun l => (l.pk, l.orderId, l.commercialOfferId)) := by
      intro t
      rw [Table.select_delete]
      exact List.filter_filter.trans (List.filter_congr (fun l _ => Bool.and_comm ..))
    rw [hkept]
    refine (Table.map_select_congr hkey _ (fun x => x.2.2)).trans ?_
    rw [← hkept, Table.select_delete, List.filter_map]
    refine congrArg (List.map _) (List.filter_congr (fun l hl => ?_))
    rw [Bool.eq_iff_iff, Bool.not_eq_true', ← Bool.not_eq_true, List.contains_iff_mem,
      mem_removedLineIds, Function.comp_apply, List.contains_iff_mem, List.mem_map]
    constructor
    · intro hnot
      by_contra hnone
      exact hnot ⟨l, hl, rfl, fun line hline heq => hnone ⟨line, hline, heq⟩⟩
    · rintro ⟨line, hline, heq⟩ ⟨m, hm, hpk, hnone⟩
      have hml : m = l := Table.eq_of_pk_eq (t := db.lines) (Db.mem_orderLines.mp hm).1
        (Db.mem_orderLines.mp hl).1 hpk
      exact hnone line hline (hml ▸ heq)
  have hnew : ∀ n, ∀ l ∈ Table.made n (xs.map NewOrderLine.row),
      decide (l.orderId = o.pk) = true := by
    intro n l hl
    obtain ⟨x, hx, m, rfl⟩ := Table.mem_made_map hl
    obtain ⟨line, -, hof⟩ := forall₂_right hxs x hx
    exact decide_eq_true hof.order
  have hnext : (Db.deleteLines { db with lines := retained.foldl Table.put db.lines }
      (removedLineIds db o.pk lines)).lines.next = db.lines.next :=
    Table.next_foldl_put db.lines retained
  show ((Table.insertAll _ _).select _).map _ = _
  rw [Table.select_insertAll_of (hnew _), hnext, List.map_append, offers_made,
    map_eq_of_forall₂ hxs (fun line x hx => hx.offer), offers_addedLines]
  exact congrArg (· ++ _) hold

/-- Lines can be created when the table admits each of them and each is for an offer of its
    product and of the order's channel. -/
theorem createOrderLines_returns (db : Db)
    (hvalid : ∀ line ∈ lines, line.commercialOffer.productId = line.product.pk
      ∧ line.commercialOffer.channel = o.channel)
    (hstorable : ∀ line ∈ lines, line.Storable) :
    ∃ db', createOrderLines db o lines = .ok db' := by
  obtain ⟨ks, hks⟩ : ∃ ks, lines.mapM (validateCommercialOffer o) = .ok ks :=
    mapM_ok (fun line hline => ⟨_, validateCommercialOffer_eq_ok.mpr
      ⟨(hvalid line hline).1, (hvalid line hline).2, rfl⟩⟩)
  obtain ⟨rows, hrows⟩ := mapM_ok (fun line hline => exists_newOrderLine o (hstorable line hline))
  unfold createOrderLines
  simp only [bind_eq_ok, pure_eq_ok]
  exact ⟨_, ks, hks, rows, hrows, rfl⟩

/-- An edit goes through under the same conditions. -/
theorem replaceLines_returns
    (hex : ((db.orderLines o.pk).map OrderLine.commercialOfferId).Nodup)
    (hvalid : ∀ line ∈ lines, line.commercialOffer.productId = line.product.pk
      ∧ line.commercialOffer.channel = o.channel)
    (hstorable : ∀ line ∈ lines, line.Storable) :
    ∃ db', replaceLines db o (lines.map (fun line => (line.commercialOffer.pk, line)))
      ((db.orderLines o.pk).map (fun l => (l.commercialOfferId, l))) = .ok db' := by
  -- every retained line takes its new quantity
  have hresize : ∀ e ∈ retainedLines db o.pk lines, ∃ l', e.1.resize e.2 = .ok l' := by
    intro e he
    obtain ⟨line, hline, -, -, hq⟩ := (mem_retainedLines hex).mp he
    exact ⟨_, OrderLine.resize_eq_ok.mpr ⟨hq ▸ (hstorable line hline).quantity, rfl⟩⟩
  obtain ⟨retained, hretained⟩ := mapM_ok hresize
  -- and every other line can be created
  have hadded : ∀ line ∈ addedLines db o.pk lines, line ∈ lines :=
    fun line hline => (addedLines_sublist o.pk).subset hline
  obtain ⟨db', hcreate⟩ := createOrderLines_returns
    (Db.deleteLines { db with lines := retained.foldl Table.put db.lines }
      (removedLineIds db o.pk lines))
    (fun line hline => hvalid line (hadded line hline))
    (fun line hline => hstorable line (hadded line hline))
  exact ⟨db', replaceLines_eq_ok_iff.mpr ⟨retained, hretained, hcreate⟩⟩

end

end SwedeSweets
