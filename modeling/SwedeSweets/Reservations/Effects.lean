import SwedeSweets.Reservations.Services

namespace SwedeSweets

open Relational Fallible

/-!
# What the reservation services write

One lemma per service, in the shape "it returns iff these facts hold, and the database is
then this one":

* `cancelReservationsForOrder_eq`, `cancelTemporaryReservationsForOrder_eq`;
* `consumeReservationsForOrder_eq_ok` — the picked batches are those the order holds units
  on, each ACTIVE and with enough stock;
* `makeReservationsPermanentForOrder_eq_ok`;
* `reserveOrderLineFromPool_eq_ok` — the new rows are the FEFO filling of the quantity
  from the free units of the pool, and `Reservation` collects what follows from that.
-/

namespace Db

/-- The units an order has RESERVED on a batch. -/
def reservedBy (db : Db) (orderPk batchPk : ℕ) : ℕ :=
  db.allocations.total (fun a =>
    if reservedOf orderPk a = true ∧ a.batchId = batchPk then a.quantity else 0)

end Db

/-- The rewrite of an allocation's status. -/
def setStatus (status : AllocationStatus) : Edit Allocation where
  apply a := { a with status := status }
  pk_apply _ := rfl

/-- The rewrite of a batch from which units are taken. -/
def takeUnits (taken : ℕ → ℕ) : Edit InventoryBatch where
  apply b :=
    { b with
      quantity := b.quantity - taken b.pk
      status := InventoryBatch.statusOf (b.quantity - taken b.pk) }
  pk_apply _ := rfl

/-- A list is not empty when it has a member. -/
private theorem ne_nil_iff {α : Type} {xs : List α} : xs ≠ [] ↔ ∃ x, x ∈ xs :=
  ⟨List.exists_mem_of_ne_nil xs, fun ⟨_, hx⟩ => List.ne_nil_of_mem hx⟩

/-- The allocations of the query are the order's RESERVED ones. -/
theorem reservedOf_iff {o : ℕ} {a : Allocation} :
    reservedOf o a = true ↔ a.orderId = o ∧ a.status = .reserved := by
  simp [reservedOf]

/-! ### Releasing -/

/-- Saving rewritten rows one after the other is a bulk rewrite. -/
theorem saveAllocations_eq {db : Db} {f : Allocation → Result Allocation} {u : Edit Allocation}
    {p : Allocation → Bool} {as : List Allocation} (hperm : as.Perm (db.allocations.select p))
    (hf : ∀ a ∈ as, f a = .ok (u.apply a)) :
    saveAllocations db f as
      = .ok { db with allocations := db.allocations.modify p u } := by
  rw [← Table.foldl_put_eq_modify db.allocations p u hperm]
  clear hperm
  unfold saveAllocations
  -- By induction on the rows; each is saved on its own.
  induction as generalizing db with
  | nil => rfl
  | cons a as ih =>
    have ha : (do
        let a' ← f a
        return { db with allocations := db.allocations.put a' } : Result Db)
        = .ok { db with allocations := db.allocations.put (u.apply a) } := by
      rw [hf a (by simp)]; rfl
    rw [List.foldlM_cons, ha]
    exact ih (fun x hx => hf x (List.mem_cons_of_mem _ hx))

/-- A reserved allocation is cancelled by its status. -/
theorem Allocation.cancel_of_reserved {a : Allocation} (h : a.status = .reserved) :
    a.cancel = .ok ((setStatus .cancelled).apply a) := by
  simp [cancel, transitionTo, h, allowedTransitions, require, bind, Except.bind, pure,
    Except.pure, setStatus]

/-- A reserved allocation is consumed by its status. -/
theorem Allocation.consume_of_reserved {a : Allocation} (h : a.status = .reserved) :
    a.consume = .ok ((setStatus .consumed).apply a) := by
  simp [consume, transitionTo, h, allowedTransitions, require, bind, Except.bind, pure,
    Except.pure, setStatus]

/-- The database after an order's reservations were cancelled. -/
def Db.released (db : Db) (orderPk : ℕ) : Db :=
  { db with allocations := db.allocations.modify (reservedOf orderPk) (setStatus .cancelled) }

/-- An order's temporary reservation. -/
def temporaryOf (orderPk : ℕ) (a : Allocation) : Bool :=
  reservedOf orderPk a && a.reservedUntil.isSome

/-- The temporary allocations are the reserved ones with a deadline. -/
theorem temporaryOf_iff {o : ℕ} {a : Allocation} :
    temporaryOf o a = true ↔ reservedOf o a = true ∧ a.reservedUntil ≠ none := by
  simp [temporaryOf, Option.isSome_iff_ne_none]

/-- The database after an order's temporary reservations were cancelled. -/
def Db.releasedTemporary (db : Db) (orderPk : ℕ) : Db :=
  { db with allocations := db.allocations.modify (temporaryOf orderPk) (setStatus .cancelled) }

/-- Cancelling always succeeds. -/
theorem cancelReservationsForOrder_eq (db : Db) (o : ℕ) :
    cancelReservationsForOrder db o = .ok (db.released o) :=
  saveAllocations_eq (List.Perm.refl _) (fun _ ha =>
    Allocation.cancel_of_reserved (reservedOf_iff.mp (Table.mem_select.mp ha).2).2)

/-- Cancelling temporary reservations cannot fail. -/
theorem cancelTemporaryReservationsForOrder_eq (db : Db) (o : ℕ) :
    cancelTemporaryReservationsForOrder db o = .ok (db.releasedTemporary o) := by
  refine saveAllocations_eq (List.Perm.refl _) (fun a ha => ?_)
  have hp := temporaryOf_iff.mp (Table.mem_select.mp ha).2
  exact Allocation.cancel_of_reserved (reservedOf_iff.mp hp.1).2

/-! ### Consuming -/

/-- One pick succeeds iff the batch gives the units. -/
theorem pickBatch_eq_ok {rt : Runtime} {db db' : Db} {k q : ℕ} :
    pickBatch rt db (k, q) = .ok db' ↔
      (∃ b ∈ db.batches, b.pk = k ∧ b.Gives q) ∧
        db' = { db with
          batches := db.batches.modify (fun b => b.pk == k) (takeUnits (fun _ => q)) } := by
  unfold pickBatch
  simp only [bind_eq_ok, orRaise_eq_ok, Table.get?_eq_some, InventoryBatch.pick_fresh, pure_eq_ok]
  -- The batch is read fresh, so picking writes back its own row.
  constructor
  · rintro ⟨b, ⟨hb, rfl⟩, r, ⟨hgives, rfl⟩, rfl⟩
    refine ⟨⟨b, hb, rfl, hgives⟩, ?_⟩
    have hput := Table.put_eq_modify (takeUnits (fun _ => q)) hb
    exact congrArg (fun t => { db with batches := t }) hput
  · rintro ⟨⟨b, hb, rfl, hgives⟩, rfl⟩
    refine ⟨b, ⟨hb, rfl⟩, _, ⟨hgives, rfl⟩, ?_⟩
    have hput := Table.put_eq_modify (takeUnits (fun _ => q)) hb
    exact congrArg (fun t => { db with batches := t }) hput

/-- The picking loop succeeds iff every batch named gives the units asked from it. -/
theorem pickBatches_foldlM_eq_ok {rt : Runtime} {es : List (ℕ × ℕ)}
    (hnd : (es.map Prod.fst).Nodup) (db db' : Db) :
    es.foldlM (pickBatch rt) db = .ok db' ↔
      (∀ e ∈ es, ∃ b ∈ db.batches, b.pk = e.1 ∧ b.Gives e.2)
      ∧ db' = { db with
          batches := db.batches.modify (fun b => (es.map Prod.fst).contains b.pk)
            (takeUnits (fun k => (es.lookup k).getD 0)) } := by
  induction es generalizing db with
  | nil =>
    have hself : db.batches.modify (fun b => ([] : List ℕ).contains b.pk)
        (takeUnits (fun k => (([] : List (ℕ × ℕ)).lookup k).getD 0)) = db.batches :=
      Table.modify_eq_self (fun _ _ => by simp)
    simp only [List.foldlM_nil, pure_eq_ok, List.map_nil, hself]
    exact ⟨fun h => ⟨by simp, h.symm⟩, fun h => h.2.symm⟩
  | cons e es ih =>
    obtain ⟨k, q⟩ := e
    rw [List.map_cons, List.nodup_cons] at hnd
    -- a later pick finds the batch as the earlier one left it, which is as it was
    have hkeep : ∀ e ∈ es, ∀ (P : InventoryBatch → Prop),
        (∃ b ∈ db.batches.modify (fun b => b.pk == k) (takeUnits (fun _ => q)),
          b.pk = e.1 ∧ P b) ↔ ∃ b ∈ db.batches, b.pk = e.1 ∧ P b := by
      intro e he P
      have hne : e.1 ≠ k := fun h => hnd.1 (by rw [← h]; exact List.mem_map.mpr ⟨e, he, rfl⟩)
      constructor
      · rintro ⟨b, hb, hpk, hP⟩
        obtain ⟨x, hx, hxb⟩ := Table.mem_modify.mp hb
        by_cases hxk : (x.pk == k) = true
        · rw [if_pos hxk] at hxb
          have : b.pk = x.pk := by rw [← hxb]; rfl
          exact absurd (hpk.symm.trans (this.trans (by simpa using hxk))) hne
        · rw [if_neg hxk] at hxb
          subst hxb
          exact ⟨x, hx, hpk, hP⟩
      · rintro ⟨b, hb, hpk, hP⟩
        refine ⟨b, Table.mem_modify.mpr ⟨b, hb, ?_⟩, hpk, hP⟩
        exact if_neg (by simpa [hpk] using hne)
    have hmerge : (db.batches.modify (fun b => b.pk == k) (takeUnits (fun _ => q))).modify
          (fun b => (es.map Prod.fst).contains b.pk) (takeUnits (fun k => (es.lookup k).getD 0))
        = db.batches.modify (fun b => (((k, q) :: es).map Prod.fst).contains b.pk)
          (takeUnits (fun j => (((k, q) :: es).lookup j).getD 0)) := by
      refine Table.ext ?_ rfl
      show (db.batches.rows.map _).map _ = db.batches.rows.map _
      rw [List.map_map]
      refine List.map_congr_left (fun b _ => ?_)
      by_cases hb : b.pk = k
      · have hnot : k ∉ es.map Prod.fst := hnd.1
        simp_all [takeUnits]
      · have hlook : ((k, q) :: es).lookup b.pk = es.lookup b.pk := by
          rw [List.lookup_cons, show (b.pk == k) = false by simpa using hb]
        have hcont : (((k, q) :: es).map Prod.fst).contains b.pk
            = (es.map Prod.fst).contains b.pk := by simp [hb]
        have hbeq : (b.pk == k) = false := by simpa using hb
        simp only [Function.comp_apply, hbeq, Bool.false_eq_true, if_false, hcont]
        simp only [takeUnits, hlook]
    simp only [List.foldlM_cons, bind_eq_ok, pickBatch_eq_ok, List.forall_mem_cons]
    constructor
    · rintro ⟨db₁, ⟨hhead, rfl⟩, hrest⟩
      obtain ⟨htail, rfl⟩ := (ih hnd.2 _).mp hrest
      refine ⟨⟨hhead, fun e he => (hkeep e he _).mp (htail e he)⟩, ?_⟩
      exact congrArg (fun t => { db with batches := t }) hmerge
    · rintro ⟨⟨hhead, htail⟩, rfl⟩
      refine ⟨_, ⟨hhead, rfl⟩, (ih hnd.2 _).mpr ⟨fun e he => (hkeep e he _).mpr (htail e he), ?_⟩⟩
      exact (congrArg (fun t => { db with batches := t }) hmerge).symm

namespace Db

/-- The database after an order's reservations were consumed. -/
def consumed (db : Db) (orderPk : ℕ) : Db :=
  { db with
    batches := db.batches.modify (fun b => 0 < db.reservedBy orderPk b.pk)
      (takeUnits (db.reservedBy orderPk))
    allocations := db.allocations.modify (reservedOf orderPk) (setStatus .consumed) }

/-- An order reserves units of a batch when one of its reserved allocations is on it. -/
theorem reservedBy_pos {db : Db} {o k : ℕ} :
    0 < db.reservedBy o k ↔ ∃ a ∈ db.allocations, reservedOf o a = true ∧ a.batchId = k := by
  rw [Nat.pos_iff_ne_zero, ne_eq, reservedBy, Table.total_eq_zero]
  push Not
  refine exists_congr (fun a => and_congr_right (fun _ => ?_))
  have := a.quantity_pos
  by_cases h : reservedOf o a = true ∧ a.batchId = k
  · rw [if_pos h]; exact ⟨fun _ => h, fun _ => by omega⟩
  · rw [if_neg h]; exact ⟨fun hh => absurd rfl hh, fun hh => absurd hh h⟩

end Db

/-- The grouped quantities are what the order has reserved per batch. -/
theorem quantityByBatchPk_spec (db : Db) (o : ℕ) {as : List Allocation}
    (hperm : as.Perm (db.allocations.select (reservedOf o))) :
    (∀ k, (quantityByBatchPk as).getD k 0 = db.reservedBy o k)
      ∧ ∀ k, k ∈ (quantityByBatchPk as).keys ↔ 0 < db.reservedBy o k := by
  constructor
  · intro k
    unfold quantityByBatchPk Db.reservedBy
    rw [Dict.getD_accumulate, List.map_map, ((hperm.map _).sum_eq)]
    refine (Table.sum_select db.allocations (reservedOf o)
      (fun a => if a.batchId = k then a.quantity else 0)).trans (Table.total_congr (fun a _ => ?_))
    by_cases h : reservedOf o a = true <;> simp [h]
  · intro k
    unfold quantityByBatchPk
    rw [Dict.mem_keys_accumulate, Db.reservedBy_pos, List.map_map]
    simp only [List.mem_map, Function.comp_apply, hperm.mem_iff, Table.mem_select, and_assoc]

/-- **Consume.** Consuming succeeds iff the order has RESERVED rows and every batch they
    name gives all units the order reserved on it; it takes exactly these units from each
    batch. -/
theorem consumeReservationsForOrder_eq_ok {rt : Runtime} {db db' : Db} {o : ℕ} :
    consumeReservationsForOrder rt db o = .ok db' ↔
      (∃ a ∈ db.allocations, reservedOf o a = true) ∧
      (∀ k, 0 < db.reservedBy o k →
        ∃ b ∈ db.batches, b.pk = k ∧ b.Gives (db.reservedBy o k)) ∧
      db' = db.consumed o := by
  unfold consumeReservationsForOrder requireReservations
  have hperm : ((db.allocations.select (reservedOf o)).insertionSort (consumeOrder rt db)).Perm
      (db.allocations.select (reservedOf o)) := List.perm_insertionSort _ _
  generalize (db.allocations.select (reservedOf o)).insertionSort (consumeOrder rt db) = as at *
  obtain ⟨hget, hkeys⟩ := quantityByBatchPk_spec db o hperm
  have hne : as ≠ [] ↔ ∃ a ∈ db.allocations, reservedOf o a = true := by
    rw [ne_nil_iff]
    refine exists_congr (fun a => ?_)
    rw [hperm.mem_iff, Table.mem_select]
  have hlook : ∀ k, ((quantityByBatchPk as).entries.lookup k).getD 0 = db.reservedBy o k := hget
  simp only [bind_eq_ok, require_eq_ok, exists_const, hne,
    pickBatches_foldlM_eq_ok (quantityByBatchPk as).nodup, hlook]
  -- The picked batches are those with reserved units of the order.
  have hbatches : db.batches.modify
        (fun b => ((quantityByBatchPk as).entries.map Prod.fst).contains b.pk)
        (takeUnits (db.reservedBy o))
      = db.batches.modify (fun b => 0 < db.reservedBy o b.pk) (takeUnits (db.reservedBy o)) := by
    refine Table.modify_congr (fun b _ => ?_) (fun _ _ _ => rfl)
    rw [Bool.eq_iff_iff, List.contains_iff_mem, decide_eq_true_eq]
    exact hkeys b.pk
  have hsave : ∀ d : Db, d.allocations = db.allocations → saveAllocations d Allocation.consume as
      = .ok { d with allocations := d.allocations.modify (reservedOf o) (setStatus .consumed) } := by
    intro d hd
    refine saveAllocations_eq (by rw [hd]; exact hperm) (fun a ha => ?_)
    exact Allocation.consume_of_reserved
      (reservedOf_iff.mp (Table.mem_select.mp (hperm.mem_iff.mp ha)).2).2
  -- A pick for each batch, against a number for each batch key.
  have hall : (∀ e ∈ (quantityByBatchPk as).entries, ∃ b ∈ db.batches,
        b.pk = e.1 ∧ b.Gives e.2) ↔
      ∀ k, 0 < db.reservedBy o k →
        ∃ b ∈ db.batches, b.pk = k ∧ b.Gives (db.reservedBy o k) := by
    constructor
    · intro h k hk
      obtain ⟨e, he, rfl⟩ := List.mem_map.mp ((hkeys k).mpr hk)
      have hval : e.2 = db.reservedBy o e.1 := by rw [← hget, Dict.getD_of_mem he]
      obtain ⟨b, hb, hpk, hgives⟩ := h e he
      exact ⟨b, hb, hpk, hval ▸ hgives⟩
    · intro h e he
      have hval : e.2 = db.reservedBy o e.1 := by rw [← hget, Dict.getD_of_mem he]
      have hpos : 0 < db.reservedBy o e.1 := (hkeys e.1).mp (List.mem_map_of_mem he)
      obtain ⟨b, hb, hpk, hgives⟩ := h e.1 hpos
      exact ⟨b, hb, hpk, hval.symm ▸ hgives⟩
  constructor
  · rintro ⟨hex, d, ⟨hpicks, rfl⟩, hd⟩
    have hd' := Except.ok.inj (hd.symm.trans (hsave _ (by rfl)))
    refine ⟨hex, hall.mp hpicks, hd'.trans ?_⟩
    rw [hbatches]
    rfl
  · rintro ⟨hex, hpicks, rfl⟩
    refine ⟨hex, _, ⟨hall.mpr hpicks, rfl⟩, (hsave _ (by rfl)).trans ?_⟩
    rw [hbatches]
    rfl

/-! ### Promoting -/

/-- An order's active reservation. -/
def activeOf (now : Time) (orderPk : ℕ) (a : Allocation) : Bool :=
  reservedOf orderPk a && a.isActive now

/-- The database after an order's active reservations were made durable. -/
def Db.promoted (now : Time) (db : Db) (orderPk : ℕ) : Db :=
  { db with allocations := db.allocations.modify (activeOf now orderPk) clearReservedUntil }

/-- What is promoted, and when. -/
theorem promotable_eq_ok {now : Time} {o : ℕ} {as rows : List Allocation} :
    promotable now o as = .ok rows ↔
      rows = as.filter (fun a => a.reservedUntil.all (fun u => now < u))
        ∧ rows ≠ [] ∧ ∀ a ∈ rows, a.reservedUntil ≠ none := by
  unfold promotable
  simp only [bind_eq_ok, require_eq_ok, exists_const, pure_eq_ok]
  constructor
  · rintro ⟨hne, hnull, rfl⟩
    exact ⟨rfl, hne, hnull⟩
  · rintro ⟨rfl, hne, hnull⟩
    exact ⟨hne, hnull, rfl⟩

/-- **Promote.** Promotion succeeds iff the order has active reservations and none of them
    is durable yet; it makes exactly the active ones durable. -/
theorem makeReservationsPermanentForOrder_eq_ok {rt : Runtime} {db db' : Db} {o : ℕ} :
    makeReservationsPermanentForOrder rt db o = .ok db' ↔
      (∃ a ∈ db.allocations, reservedOf o a = true ∧ a.isActive rt.now = true) ∧
      (∀ a ∈ db.allocations, reservedOf o a = true → a.reservedUntil ≠ none) ∧
      db' = db.promoted rt.now o := by
  unfold makeReservationsPermanentForOrder
  simp only [bind_eq_ok, pure_eq_ok, promotable_eq_ok, and_assoc, exists_eq_left, makePermanent]
  -- For a RESERVED row, active means unexpired.
  have hact : ∀ a : Allocation, reservedOf o a = true →
      a.isActive rt.now = a.reservedUntil.all (fun u => rt.now < u) := by
    intro a ha
    simp [Allocation.isActive, (reservedOf_iff.mp ha).2]
  have hmem : ∀ a, a ∈ (db.allocations.select (reservedOf o)).filter
        (fun a => a.reservedUntil.all (fun u => decide (rt.now < u)))
      ↔ a ∈ db.allocations ∧ reservedOf o a = true ∧ a.isActive rt.now = true := by
    intro a
    rw [List.mem_filter, Table.mem_select, and_assoc]
    exact and_congr_right (fun _ => and_congr_right (fun h => by rw [hact a h]))
  generalize (db.allocations.select (reservedOf o)).filter
    (fun a => a.reservedUntil.all (fun u => decide (rt.now < u))) = as at *
  have hne : as ≠ [] ↔
      ∃ a ∈ db.allocations, reservedOf o a = true ∧ a.isActive rt.now = true := by
    rw [ne_nil_iff]
    exact exists_congr hmem
  have hnull : (∀ a ∈ as, a.reservedUntil ≠ none) ↔
      ∀ a ∈ db.allocations, reservedOf o a = true → a.reservedUntil ≠ none := by
    constructor
    · -- a durable reservation would be active
      intro h a ha hr hnone
      exact h a ((hmem a).mpr ⟨ha, hr, by rw [hact a hr, hnone]; rfl⟩) hnone
    · intro h a ha
      obtain ⟨ha, hr, -⟩ := (hmem a).mp ha
      exact h a ha hr
  -- Rows are told apart by their keys, so the update hits the active ones.
  have hmod : db.allocations.modify (fun a => (as.map Allocation.pk).contains a.pk)
        clearReservedUntil
      = db.allocations.modify (activeOf rt.now o) clearReservedUntil := by
    refine Table.modify_congr (fun a ha => ?_) (fun _ _ _ => rfl)
    rw [Bool.eq_iff_iff, List.contains_iff_mem, activeOf, Bool.and_eq_true, List.mem_map]
    constructor
    · rintro ⟨x, hx, hpk⟩
      obtain ⟨hx, hr, hact⟩ := (hmem x).mp hx
      rw [← Table.eq_of_pk_eq hx ha hpk]
      exact ⟨hr, hact⟩
    · rintro ⟨hr, hact⟩
      exact ⟨a, (hmem a).mpr ⟨ha, hr, hact⟩, rfl⟩
  rw [hne, hnull, hmod]
  exact and_congr_right (fun _ => and_congr_right (fun _ => eq_comm))

/-! ### Reserving -/

/-- The pick an allocation was made for. -/
def NewAllocation.pick (x : NewAllocation) : BatchPick := ⟨x.batchPk, x.quantity⟩

/-- The allocation of a pick has the pick's batch and units, for the line. -/
theorem newAllocation_eq_ok {line : OrderLine} {reservedUntil : Option Time} {p : BatchPick}
    {x : NewAllocation} :
    newAllocation line reservedUntil p = .ok x ↔
      x.pick = p ∧ x.line = line ∧ x.reservedUntil = reservedUntil := by
  obtain ⟨k, q⟩ := p
  obtain ⟨l, k', q', u, hq'⟩ := x
  unfold newAllocation NewAllocation.pick
  by_cases h : 0 < q.toNat
  · simp only [h, dif_pos, pure_eq_ok, NewAllocation.mk.injEq, BatchPick.mk.injEq]
    constructor
    · rintro ⟨rfl, rfl, rfl, rfl⟩
      exact ⟨⟨rfl, by omega⟩, rfl, rfl⟩
    · rintro ⟨⟨rfl, rfl⟩, rfl, rfl⟩
      exact ⟨rfl, rfl, by omega, rfl⟩
  · simp only [h, dif_neg, not_false_iff, throw_eq_ok, BatchPick.mk.injEq, false_iff]
    rintro ⟨⟨-, hq⟩, -⟩
    omega

/-- The allocations made from the picks stand for them one by one. -/
theorem mapM_newAllocation_eq_ok {line : OrderLine} {reservedUntil : Option Time}
    {picks : List BatchPick} {rows : List NewAllocation} :
    picks.mapM (newAllocation line reservedUntil) = .ok rows ↔
      rows.map NewAllocation.pick = picks
        ∧ ∀ x ∈ rows, x.line = line ∧ x.reservedUntil = reservedUntil := by
  -- By induction on the picks.
  induction picks generalizing rows with
  | nil =>
    simp only [List.mapM_nil, pure_eq_ok, List.map_eq_nil_iff]
    exact ⟨fun h => ⟨h.symm, by simp [← h]⟩, fun h => h.1.symm⟩
  | cons p ps ih =>
    simp only [List.mapM_cons, bind_eq_ok, newAllocation_eq_ok, ih, pure_eq_ok]
    constructor
    · rintro ⟨x, ⟨rfl, hx⟩, xs, ⟨rfl, hxs⟩, rfl⟩
      exact ⟨rfl, fun y hy => (List.mem_cons.mp hy).elim (fun h => h ▸ hx) (hxs y)⟩
    · rintro ⟨hmap, hall⟩
      cases rows with
      | nil => cases hmap
      | cons x xs =>
        rw [List.map_cons, List.cons.injEq] at hmap
        exact ⟨x, ⟨hmap.1, hall x (by simp)⟩, xs,
          ⟨hmap.2, fun y hy => hall y (List.mem_cons_of_mem _ hy)⟩, rfl⟩

namespace Db

/-- The units of a batch that are not actively reserved. -/
def freeUnits (now : Time) (db : Db) (b : InventoryBatch) : ℕ :=
  b.quantity - db.activeReserved now b.pk

/-- The free units of a pool. -/
def poolCapacity (now : Time) (db : Db) (batches : BatchQuery) : ℕ :=
  Greedy.capacity (db.freeUnits now) (db.batches.select batches)

/-- The database with the new reservations. -/
def withReservations (db : Db) (xs : List NewAllocation) : Db :=
  { db with allocations := db.allocations.insertAll (xs.map NewAllocation.row) }

end Db

/-- What a successful reservation of `quantity` units for a line writes. -/
structure Reservation (now : Time) (db : Db) (line : OrderLine) (batches : BatchQuery)
    (quantity : ℕ) (reservedUntil : Option Time) (xs : List NewAllocation) : Prop where
  ofLine : ∀ x ∈ xs, x.line = line ∧ x.reservedUntil = reservedUntil
  fromPool : ∀ x ∈ xs, ∃ b ∈ db.batches, b.pk = x.batchPk ∧ batches b = true
    ∧ b.productId = line.productId
  exact : (xs.map NewAllocation.quantity).sum = quantity
  fits : ∀ b ∈ db.batches,
    (xs.map (fun x => if x.batchPk = b.pk then x.quantity else 0)).sum ≤ db.freeUnits now b

/-- A batch fills the request at most once. -/
private theorem sum_fill_le {cap : BatchAvailability → ℕ} {ys : List BatchAvailability}
    (hnd : (ys.map BatchAvailability.batchPk).Nodup) (r k : ℕ) :
    ((Greedy.fill cap ys r).map (fun p => if p.1.batchPk = k then p.2 else 0)).sum
      ≤ (ys.map (fun y => if y.batchPk = k then cap y else 0)).sum := by
  -- By induction on the batches; their keys are distinct, so one of them gives to `k`.
  induction ys generalizing r with
  | nil => simp [Greedy.fill]
  | cons y ys ih =>
    rw [List.map_cons, List.nodup_cons] at hnd
    by_cases hr : r = 0
    · simp [hr]
    · by_cases hy : cap y = 0
      · rw [Greedy.fill_cons_empty hy, List.map_cons, List.sum_cons]
        exact le_trans (ih hnd.2 r) (Nat.le_add_left _ _)
      · rw [Greedy.fill_cons hy ys hr, List.map_cons, List.sum_cons, List.map_cons, List.sum_cons]
        refine Nat.add_le_add ?_ (ih hnd.2 _)
        by_cases hk : y.batchPk = k
        · simp only [hk, if_true]; exact Nat.min_le_left _ _
        · simp [hk]

/-- A pool is valid when all its batches are of the line's product. -/
theorem validatePool_eq_ok {line : OrderLine} {pool : List InventoryBatch} {u : Unit} :
    validatePool line pool = .ok u ↔ ∀ b ∈ pool, b.productId = line.productId := by
  unfold validatePool
  simp only [bind_eq_ok, require_eq_ok, exists_const]
  -- The distinct products of the pool are none, or the line's alone.
  constructor
  · rintro ⟨-, hnil | hone⟩ b hb
    · have hmem : b.productId ∈ (pool.map InventoryBatch.productId).dedup :=
        List.mem_dedup.mpr (List.mem_map_of_mem hb)
      rw [hnil] at hmem
      cases hmem
    · have hmem : b.productId ∈ (pool.map InventoryBatch.productId).dedup :=
        List.mem_dedup.mpr (List.mem_map_of_mem hb)
      rw [hone] at hmem
      exact List.mem_singleton.mp hmem
  · intro h
    have hrep : pool.map InventoryBatch.productId = List.replicate pool.length line.productId :=
      List.eq_replicate_iff.mpr ⟨List.length_map _, fun x hx => by
        obtain ⟨b, hb, rfl⟩ := List.mem_map.mp hx
        exact h b hb⟩
    rw [hrep]
    cases hlen : pool.length with
    | zero => simp
    | succ n => rw [List.replicate_dedup (by omega)]; simp

/-- The batches a reservation locks. -/
def lockedPool (rt : Runtime) (db : Db) (batches : BatchQuery) : List InventoryBatch :=
  (db.batches.select batches).insertionSort (lockOrder rt)

/-- Sorting the locked batches keeps each of them. -/
theorem lockedPool_perm (rt : Runtime) (db : Db) (batches : BatchQuery) :
    (lockedPool rt db batches).Perm (db.batches.select batches) := List.perm_insertionSort _ _

/-- The locked pool holds the batches of the query. -/
theorem mem_lockedPool {rt : Runtime} {db : Db} {batches : BatchQuery} {b : InventoryBatch} :
    b ∈ lockedPool rt db batches ↔ b ∈ db.batches ∧ batches b = true := by
  rw [(lockedPool_perm rt db batches).mem_iff, Table.mem_select]

/-- The free units the planner sees in a locked batch are the free units of the batch. -/
theorem freeUnits_availability {rt : Runtime} {db : Db} {pool : List InventoryBatch}
    {b : InventoryBatch} (hb : b ∈ pool) :
    freeUnits (activeReservedQuantitiesByBatchPk rt.now db (pool.map InventoryBatch.pk))
      b.availability = db.freeUnits rt.now b := by
  unfold freeUnits allocatableQuantity Db.freeUnits InventoryBatch.availability
  simp only [getD_activeReservedQuantities, if_pos (List.mem_map_of_mem hb)]
  omega

/-- The capacity the planner sees is the pool's. -/
theorem capacity_availability (rt : Runtime) (db : Db) (batches : BatchQuery) :
    Greedy.capacity
        (freeUnits (activeReservedQuantitiesByBatchPk rt.now db
          ((lockedPool rt db batches).map InventoryBatch.pk)))
        ((lockedPool rt db batches).map InventoryBatch.availability)
      = db.poolCapacity rt.now batches := by
  unfold Greedy.capacity Db.poolCapacity Greedy.capacity
  rw [← ((lockedPool_perm rt db batches).map _).sum_eq, List.map_map]
  exact congrArg List.sum (List.map_congr_left (fun b hb => freeUnits_availability hb))

/-- The plan a reservation makes. -/
def reservationPlan (rt : Runtime) (db : Db) (batches : BatchQuery) (quantity : ℕ) :
    List (BatchAvailability × ℕ) :=
  Greedy.fill
    (freeUnits (activeReservedQuantitiesByBatchPk rt.now db
      ((lockedPool rt db batches).map InventoryBatch.pk)))
    (fefoOrder ((lockedPool rt db batches).map InventoryBatch.availability)) quantity

/-- **Reserve.** Reserving succeeds iff the quantity is positive, the pool is of the line's
    product and its free units meet the quantity; it inserts one row per pick of the FEFO
    plan. -/
theorem reserveOrderLineFromPool_eq_ok {rt : Runtime} {db db' : Db} {line : OrderLine}
    {batches : BatchQuery} {quantity : ℕ} {reservedUntil : Option Time} :
    reserveOrderLineFromPool rt db line batches quantity reservedUntil = .ok db' ↔
      0 < quantity ∧ (∀ b ∈ db.batches, batches b = true → b.productId = line.productId)
      ∧ quantity ≤ db.poolCapacity rt.now batches
      ∧ ∃ xs, xs.map NewAllocation.pick = picksOf (reservationPlan rt db batches quantity)
          ∧ (∀ x ∈ xs, x.line = line ∧ x.reservedUntil = reservedUntil)
          ∧ db' = db.withReservations xs := by
  unfold reserveOrderLineFromPool planReservation
  rw [← lockedPool]
  simp only [bind_eq_ok, validatePool_eq_ok, exists_const, planBatchPicks_eq_ok,
    mapM_newAllocation_eq_ok, pure_eq_ok, capacity_availability, Int.toNat_natCast, Int.ofNat_le]
  -- What `plan_batch_picks` checks besides the capacity holds of every pool.
  constructor
  · rintro ⟨hprod, xs, ⟨picks, ⟨⟨hpos, -, -, -, hcap⟩, rfl⟩, hmap, hxs⟩, rfl⟩
    refine ⟨by exact_mod_cast hpos, fun b hb hp => hprod b (mem_lockedPool.mpr ⟨hb, hp⟩), hcap,
      xs, hmap, hxs, rfl⟩
  · rintro ⟨hpos, hprod, hcap, xs, hmap, hxs, rfl⟩
    have hline : ∀ b ∈ lockedPool rt db batches, b.productId = line.productId := fun b hb =>
      hprod b (mem_lockedPool.mp hb).1 (mem_lockedPool.mp hb).2
    refine ⟨hline, xs, ⟨_, ⟨⟨by exact_mod_cast hpos, ⟨line.productId, fun a ha => ?_⟩,
      fun a ha => ?_, activeReservedQuantities_nonneg _ _ _, hcap⟩, rfl⟩, hmap, hxs⟩, rfl⟩
    · obtain ⟨b, hb, rfl⟩ := List.mem_map.mp ha
      exact hline b hb
    · obtain ⟨b, hb, rfl⟩ := List.mem_map.mp ha
      exact Int.natCast_nonneg _

/-- A plan asks for positive quantities only, so its rows can be inserted. -/
theorem exists_rows (line : OrderLine) (reservedUntil : Option Time)
    {cap : BatchAvailability → ℕ} {bs : List BatchAvailability} (quantity : ℕ) :
    ∃ xs : List NewAllocation, xs.map NewAllocation.pick = picksOf (Greedy.fill cap bs quantity)
      ∧ ∀ x ∈ xs, x.line = line ∧ x.reservedUntil = reservedUntil := by
  have hpos : ∀ p ∈ picksOf (Greedy.fill cap bs quantity),
      ∃ x, newAllocation line reservedUntil p = .ok x := by
    intro p hp
    obtain ⟨z, hz, rfl⟩ := List.mem_map.mp hp
    have hz : 0 < z.2 := (Greedy.mem_fill hz).2.1
    exact ⟨⟨line, z.1.batchPk, z.2, reservedUntil, hz⟩, newAllocation_eq_ok.mpr ⟨rfl, rfl, rfl⟩⟩
  obtain ⟨xs, hxs⟩ := mapM_ok hpos
  exact ⟨xs, mapM_newAllocation_eq_ok.mp hxs⟩

/-- Reserving succeeds iff the pool is of the line's product and its free units meet the
    positive quantity. -/
theorem reserveOrderLineFromPool_returns {rt : Runtime} {db : Db} {line : OrderLine}
    {batches : BatchQuery} {quantity : ℕ} {reservedUntil : Option Time} :
    (∃ db', reserveOrderLineFromPool rt db line batches quantity reservedUntil = .ok db') ↔
      0 < quantity ∧ (∀ b ∈ db.batches, batches b = true → b.productId = line.productId)
        ∧ quantity ≤ db.poolCapacity rt.now batches := by
  simp only [reserveOrderLineFromPool_eq_ok]
  constructor
  · rintro ⟨db', hpos, hproduct, hcap, -⟩
    exact ⟨hpos, hproduct, hcap⟩
  · rintro ⟨hpos, hproduct, hcap⟩
    obtain ⟨xs, hxs, hline⟩ := exists_rows line reservedUntil quantity
    exact ⟨_, hpos, hproduct, hcap, xs, hxs, hline, rfl⟩

/-- What a plan writes: rows of the line, each on a batch of the pool, that together take the
    quantity and from no batch more than is free. -/
structure Planned (line : OrderLine) (reservedUntil : Option Time) (pool : List InventoryBatch)
    (reserved : Dict ℕ ℤ) (quantity : ℤ) (xs : List NewAllocation) : Prop where
  ofLine : ∀ x ∈ xs, x.line = line ∧ x.reservedUntil = reservedUntil
  fromPool : ∀ x ∈ xs, ∃ b ∈ pool, b.pk = x.batchPk
  exact : (xs.map NewAllocation.quantity).sum = quantity.toNat
  fits : ∀ b ∈ pool, (xs.map (fun x => if x.batchPk = b.pk then x.quantity else 0)).sum
    ≤ freeUnits reserved b.availability

/-- **Plan.** -/
theorem planned_of_eq_ok {line : OrderLine} {reservedUntil : Option Time}
    {pool : List InventoryBatch} {reserved : Dict ℕ ℤ} {quantity : ℤ} {xs : List NewAllocation}
    (hnd : (pool.map InventoryBatch.pk).Nodup)
    (h : planReservation line reservedUntil pool reserved quantity = .ok xs) :
    Planned line reservedUntil pool reserved quantity xs := by
  unfold planReservation at h
  simp only [bind_eq_ok, planBatchPicks_eq_ok, mapM_newAllocation_eq_ok] at h
  obtain ⟨-, ⟨⟨hpos, -, -, -, hcap⟩, rfl⟩, hmap, hxs⟩ := h
  -- The allocations are the greedy fill of the FEFO order, batch by batch.
  have hpairs : xs.map (fun x => (x.batchPk, x.quantity))
      = (Greedy.fill (freeUnits reserved) (fefoOrder (pool.map InventoryBatch.availability))
          quantity.toNat).map (fun z => (z.1.batchPk, z.2)) := by
    have hconv := congrArg (List.map (fun p : BatchPick => (p.batchPk, p.quantity.toNat))) hmap
    simpa [picksOf, NewAllocation.pick, Function.comp_def] using hconv
  have hpk : ((fefoOrder (pool.map InventoryBatch.availability)).map
      BatchAvailability.batchPk).Nodup := by
    rw [((fefoOrder_perm _).map _).nodup_iff, List.map_map]
    exact hnd
  refine ⟨hxs, fun x hx => ?_, ?_, fun b hb => ?_⟩
  · -- every pick is from a batch of the pool
    have hmem : (x.batchPk, x.quantity) ∈ xs.map (fun x => (x.batchPk, x.quantity)) :=
      List.mem_map.mpr ⟨x, hx, rfl⟩
    rw [hpairs] at hmem
    obtain ⟨z, hz, hzx⟩ := List.mem_map.mp hmem
    obtain ⟨b, hb, havail⟩ := List.mem_map.mp
      ((fefoOrder_perm _).mem_iff.mp (Greedy.mem_fill hz).1)
    have hzb : z.1.batchPk = b.pk := by rw [← havail]; rfl
    exact ⟨b, hb, hzb.symm.trans (Prod.mk.inj hzx).1⟩
  · have hsum := congrArg (fun ps : List (ℕ × ℕ) => (ps.map Prod.snd).sum) hpairs
    simp only [List.map_map] at hsum
    refine hsum.trans ((Greedy.sum_fill _ _ _).trans (Nat.min_eq_left ?_))
    rw [capacity_fefoOrder]
    omega
  · have hsum := congrArg (fun ps : List (ℕ × ℕ) =>
      (ps.map (fun p => if p.1 = b.pk then p.2 else 0)).sum) hpairs
    simp only [List.map_map] at hsum
    refine (le_of_eq hsum).trans ((sum_fill_le hpk quantity.toNat b.pk).trans (le_of_eq ?_))
    exact Sums.sum_key hpk ((fefoOrder_perm _).mem_iff.mpr (List.mem_map_of_mem hb)) _

/-- What is written is a `Reservation`. -/
theorem reservation_of_eq_ok {rt : Runtime} {db db' : Db} {line : OrderLine}
    {batches : BatchQuery} {quantity : ℕ} {reservedUntil : Option Time}
    (h : reserveOrderLineFromPool rt db line batches quantity reservedUntil = .ok db') :
    ∃ xs, db' = db.withReservations xs
      ∧ Reservation rt.now db line batches quantity reservedUntil xs := by
  unfold reserveOrderLineFromPool at h
  rw [← lockedPool] at h
  simp only [bind_eq_ok, validatePool_eq_ok, exists_const, pure_eq_ok] at h
  obtain ⟨hprod, xs, hplan, rfl⟩ := h
  have hpk : ((lockedPool rt db batches).map InventoryBatch.pk).Nodup :=
    ((lockedPool_perm rt db batches).map _).nodup_iff.mpr (db.batches.select_nodup_pk batches)
  have hxs := planned_of_eq_ok hpk hplan
  refine ⟨xs, rfl, hxs.ofLine, fun x hx => ?_, hxs.exact, fun b hb => ?_⟩
  · obtain ⟨b, hb, hbx⟩ := hxs.fromPool x hx
    obtain ⟨hmem, hp⟩ := mem_lockedPool.mp hb
    exact ⟨b, hmem, hbx, hp, hprod b hb⟩
  · by_cases hp : batches b = true
    · have hb' : b ∈ lockedPool rt db batches := mem_lockedPool.mpr ⟨hb, hp⟩
      rw [← freeUnits_availability hb']
      exact hxs.fits b hb'
    · -- no row is on a batch outside the pool
      refine le_of_eq_of_le (List.sum_eq_zero_iff.mpr (fun v hv => ?_)) (Nat.zero_le _)
      obtain ⟨x, hx, rfl⟩ := List.mem_map.mp hv
      obtain ⟨c, hc, hcx⟩ := hxs.fromPool x hx
      obtain ⟨hc, hpc⟩ := mem_lockedPool.mp hc
      refine if_neg (fun hk : x.batchPk = b.pk => hp ?_)
      rw [← Table.eq_of_pk_eq hc hb (hcx.trans hk)]
      exact hpc

end SwedeSweets
