import SwedeSweets.Concurrency.StockDiscipline

namespace SwedeSweets

open Relational Fallible Transition Interleaving ReadCommitted StockRow

/-!
# The stock transactions keep the discipline

One proof per transaction, statement by statement: what a worker knows about the rows it has
locked (`Holds`) and about what is promised of them (`KnowsReserved`) survives the other workers, so
at its commit the invariant still holds, and the others lose nothing they rely on.
`safe_tx` collects them.
-/

/-- A table whose locked rows the others leave as they are. -/
class KeptRow (α : Type) [Row α] [StockRow α] : Prop where
  kept : ∀ {ω : Type} {calls : ω → Runtime × StockCall} {w : ω} {s t : StockStore ω},
    StockRely calls w s t → ∀ x ∈ (table s.db : Table α),
      s.locks (rowId α (Row.pk x)) = some w → x ∈ (table t.db : Table α)

instance : KeptRow InventoryBatch := ⟨fun h => h.batch⟩

instance : KeptRow Allocation := ⟨fun h => h.allocation⟩

section

variable {ω : Type} {calls : ω → Runtime × StockCall} {start : Db} {strict : Prop}
  {s t : StockStore ω} {w : ω}

/-! ### What a worker knows -/

/-- Rows that `w` has read with a lock on them. -/
structure Holds {α : Type} [Row α] [StockRow α] (w : ω) (query : α → Bool) (xs : List α)
    (s : StockStore ω) : Prop where
  nodup : (xs.map Row.pk).Nodup
  mem : ∀ x ∈ xs, x ∈ (table s.db : Table α)
  locked : ∀ x ∈ xs, s.locks (rowId α (Row.pk x)) = some w
  matching : ∀ x ∈ xs, query x = true

/-- Locked rows stay as they were read. -/
theorem Holds.stable {α : Type} [Row α] [StockRow α] [KeptRow α] {query : α → Bool} {xs : List α}
    (h : Holds w query xs s) (hrely : StockRely calls w s t) : Holds w query xs t where
  nodup := h.nodup
  mem x hx := KeptRow.kept hrely x (h.mem x hx) (h.locked x hx)
  locked x hx := hrely.locks _ (h.locked x hx)
  matching := h.matching

variable (calls) in
/-- Batches that `w` has locked, with an upper bound of what is promised of each. -/
structure KnowsReserved (w : ω) (query : BatchQuery) (bs : List InventoryBatch) (reserved : Dict ℕ ℤ)
    (s : StockStore ω) : Prop where
  holds : Holds w query bs s
  covered : ∀ b ∈ bs, (promised calls s b.pk : ℤ) ≤ reserved.getD b.pk 0

/-- What the locked batches promise stays covered by what was read. -/
theorem KnowsReserved.stable {query : BatchQuery} {bs : List InventoryBatch} {reserved : Dict ℕ ℤ}
    (h : KnowsReserved calls w query bs reserved s) (hrely : StockRely calls w s t) :
    KnowsReserved calls w query bs reserved t where
  holds := h.holds.stable hrely
  covered b hb := by
    have hle := hrely.promised b.pk (h.holds.locked b hb)
    exact (Int.ofNat_le.mpr hle).trans (h.covered b hb)

/-- Part of the rows is held as well. -/
theorem Holds.filter {α : Type} [Row α] [StockRow α] {query : α → Bool} {xs : List α}
    (h : Holds w query xs s) (p : α → Bool) : Holds w query (xs.filter p) s where
  nodup := h.nodup.sublist (List.filter_sublist.map _)
  mem x hx := h.mem x (List.mem_of_mem_filter hx)
  locked x hx := h.locked x (List.mem_of_mem_filter hx)
  matching x hx := h.matching x (List.mem_of_mem_filter hx)

/-- The first of the locked batches is held on its own. -/
theorem Holds.head {query : BatchQuery} {bs : List InventoryBatch} (h : Holds w query bs s)
    {b : InventoryBatch} (hb : b ∈ bs) : Holds w query [b] s where
  nodup := by simp
  mem x hx := h.mem x (List.mem_singleton.mp hx ▸ hb)
  locked x hx := h.locked x (List.mem_singleton.mp hx ▸ hb)
  matching x hx := h.matching x (List.mem_singleton.mp hx ▸ hb)

/-- Rewriting locked rows leaves the others. -/
theorem mem_modify_of_held {query : Allocation → Bool} {as : List Allocation}
    (h : Holds w query as t) {u : Edit Allocation} {a : Allocation} (ha : a ∈ t.db.allocations)
    (hfree : t.locks (.allocation a.pk) ≠ some w) :
    a ∈ t.db.allocations.modify (fun x => (as.map Allocation.pk).contains x.pk) u := by
  refine Table.mem_modify.mpr ⟨a, ha, if_neg (fun hc => hfree ?_)⟩
  obtain ⟨x, hx, hpk⟩ := List.mem_map.mp (List.contains_iff_mem.mp hc)
  rw [← hpk]
  exact h.locked x hx

/-- A held row is the one a rewrite under its key finds. -/
theorem eq_of_held {query : Allocation → Bool} {as : List Allocation} (h : Holds w query as t)
    {a : Allocation} (ha : a ∈ t.db.allocations)
    (hp : (as.map Allocation.pk).contains a.pk = true) : a ∈ as := by
  obtain ⟨x, hx, hpk⟩ := List.mem_map.mp (List.contains_iff_mem.mp hp)
  rwa [← Table.eq_of_pk_eq (h.mem x hx) ha hpk]

/-- A row that is not RESERVED does not count. -/
theorem not_counts_of_status {a : Allocation} (h : a.status ≠ .reserved) : ¬ Counts calls t a := by
  rintro (hact | ⟨v, hv⟩)
  · simp [Allocation.isActive, h] at hact
  · unfold StockCall.claims at hv
    split at hv
    · simp [Allocation.isActive, h] at hv
    · cases hv

/-- A rewrite that leaves no RESERVED row with a deadline keeps consumed orders durable. -/
theorem DurableOrders.modify {db db' : Db} (h : DurableOrders calls db) {p : Allocation → Bool}
    {u : Edit Allocation} (hdb : db'.allocations = db.allocations.modify p u)
    (hu : ∀ a, (u.apply a).status = .reserved → (u.apply a).reservedUntil = none) :
    DurableOrders calls db' := by
  intro v o hv a ha hr
  rw [hdb, Table.mem_modify] at ha
  obtain ⟨x, hx, rfl⟩ := ha
  by_cases hp : p x = true
  · rw [if_pos hp] at hr ⊢
    exact hu x (reservedOf_iff.mp hr).2
  · rw [if_neg hp] at hr ⊢
    exact h v o hv x hx hr

/-- A plan takes from locked batches only, and no more than is free there. -/
theorem units_of_planned {query : BatchQuery} {bs : List InventoryBatch} {reserved : Dict ℕ ℤ}
    {line : OrderLine} {reservedUntil : Option Time} {quantity : ℤ} {xs : List NewAllocation}
    (h : KnowsReserved calls w query bs reserved t)
    (hplan : Planned line reservedUntil bs reserved quantity xs) {k : ℕ}
    (hpos : unitsOnBatch xs k ≠ 0) :
    ∃ b ∈ bs, b.pk = k ∧ promised calls t k + unitsOnBatch xs k ≤ b.quantity := by
  -- A batch that gets units is a batch of the plan, and so of the pool.
  obtain ⟨x, hx, hxk⟩ : ∃ x ∈ xs, x.batchPk = k := by
    by_contra hnone
    push Not at hnone
    refine hpos (List.sum_eq_zero_iff.mpr (fun v hv => ?_))
    obtain ⟨x, hx, rfl⟩ := List.mem_map.mp hv
    exact if_neg (hnone x hx)
  obtain ⟨b, hb, hbx⟩ := hplan.fromPool x hx
  have hbk : b.pk = k := hbx.trans hxk
  subst hbk
  have hfits : unitsOnBatch xs b.pk ≤ freeUnits reserved b.availability := hplan.fits b hb
  have hcovered := h.covered b hb
  have hfree := coe_freeUnits reserved b.availability
  unfold allocatableQuantity at hfree
  simp only [InventoryBatch.availability] at hfree hfits
  exact ⟨b, hb, rfl, by omega⟩

/-- Held allocations are the selection of their keys. -/
theorem Holds.perm_select {query : Allocation → Bool} {as : List Allocation}
    (h : Holds w query as s) :
    as.Perm (s.db.allocations.select (fun a => (as.map Allocation.pk).contains a.pk)) := by
  refine (List.perm_ext_iff_of_nodup (List.Nodup.of_map _ h.nodup)
    (List.Nodup.of_map _ (s.db.allocations.select_nodup_pk _))).mpr (fun a => ?_)
  rw [Table.mem_select]
  constructor
  · exact fun ha => ⟨h.mem a ha, List.contains_iff_mem.mpr (List.mem_map_of_mem ha)⟩
  · exact fun ⟨ha, hp⟩ => eq_of_held h ha hp

variable [DecidableEq ω]

/-- Reading the clock adds nothing to what the batches promise. -/
theorem KnowsReserved.look {query : BatchQuery} {bs : List InventoryBatch} {reserved : Dict ℕ ℤ}
    (h : KnowsReserved calls w query bs reserved s) :
    KnowsReserved calls w query bs reserved (s.look w) where
  holds := ⟨h.holds.nodup, h.holds.mem, h.holds.locked, h.holds.matching⟩
  covered b hb := by
    have hle : promised calls (s.look w) b.pk ≤ promised calls s b.pk :=
      promised_mono (t := s.look w) (s := s) rfl (counts_look w) b.pk
    exact (Int.ofNat_le.mpr hle).trans (h.covered b hb)

/-! ### Statements -/

/-- **Locking.** What is locked is held, and what was known before is still known. -/
theorem safe_selectForUpdate {α : Type} [Row α] [StockRow α] [KeptRow α] {query : α → Bool}
    {sort : Db → List α → List α} {rows : α → List RowId} {k : List α → StockTx}
    {P : StockStore ω → Prop} (hsort : ∀ db xs, (sort db xs).Perm xs)
    (hrows : ∀ x, (rows x).filter (fun r => (key α r).isSome) = [rowId α (Row.pk x)])
    (hP : ∀ s t, P s → StockRely calls w s t → P t)
    (hk : ∀ xs s, Holds w query xs s → P s → (stockDiscipline calls start strict).Safe w (k xs) id s)
    (h : P s) : (stockDiscipline calls start strict).Safe w (selectForUpdate query sort rows k) id s := by
  have hkey : ∀ n, key α (rowId α n) = some n := fun n => key_eq_some.mpr rfl
  have hinj : Function.Injective (rowId α) := fun m n hmn =>
    Option.some.inj ((hkey m).symm.trans ((congrArg (key α) hmn).trans (hkey n)))
  intro t ht
  -- The rows read so far are distinct, locked and match the query; the keys still to be locked are
  -- others.
  refine Discipline.safe_lockRows (P := fun rs xs s =>
    (xs.map (fun x => rowId α (Row.pk x)) ++ rs.filter (fun r => (key α r).isSome)).Nodup
      ∧ (∀ x ∈ xs, x ∈ (table s.db : Table α) ∧ s.locks (rowId α (Row.pk x)) = some w
          ∧ query x = true) ∧ P s) ?_ ?_ ⟨?_, by simp, hP s t h ht.rely⟩
  · rintro r rs xs u v ⟨hnd, hxs, hPu⟩ hv -
    have hrely : StockRely calls w u (v.grab w r) :=
      StockRely.trans hv.rely (StockRely.grab w v r)
    have hkeep : ∀ x ∈ xs, x ∈ (table (v.grab w r).db : Table α)
        ∧ (v.grab w r).locks (rowId α (Row.pk x)) = some w ∧ query x = true := fun x hx =>
      ⟨KeptRow.kept hrely x (hxs x hx).1 (hxs x hx).2.1, hrely.locks _ (hxs x hx).2.1,
        (hxs x hx).2.2⟩
    rcases lockedRow_cases query v.db r with hnil | ⟨x, hx, rfl, hq, hone⟩
    · -- the lock returned nothing
      rw [id, hnil, List.append_nil]
      refine ⟨hnd.sublist ?_, hkeep, hP u _ hPu hrely⟩
      exact ((List.sublist_cons_self r rs).filter _).append_left _
    · rw [id, hone]
      rw [List.filter_cons_of_pos (by rw [hkey]; rfl)] at hnd
      refine ⟨by simpa using hnd, fun y hy => ?_, hP u _ hPu hrely⟩
      rcases List.mem_append.mp hy with hy | hy
      · exact hkeep y hy
      · rw [List.mem_singleton.mp hy]
        exact ⟨hx, Function.update_self .., hq⟩
  · rintro xs u ⟨hnd, hxs, hPu⟩
    rw [List.filter_nil, List.append_nil] at hnd
    -- All rows are locked: the continuation may start.
    have hpk : (xs.map Row.pk).Nodup := by
      refine List.Nodup.of_map (rowId α) ?_
      rwa [List.map_map]
    exact hk xs u ⟨hpk, fun x hx => (hxs x hx).1, fun x hx => (hxs x hx).2.1,
      fun x hx => (hxs x hx).2.2⟩ hPu
  · -- each row of the query is locked once
    have hflat : ∀ xs : List α, (xs.flatMap rows).filter (fun r => (key α r).isSome)
        = (xs.map Row.pk).map (rowId α) := by
      intro xs
      induction xs with
      | nil => rfl
      | cons x xs ih => rw [List.flatMap_cons, List.filter_append, hrows, ih]; rfl
    rw [List.map_nil, List.nil_append, id, hflat]
    refine List.Nodup.map hinj ?_
    exact ((hsort _ _).map _).nodup_iff.mpr (Table.select_nodup_pk _ _)

/-- **Reading reservations.** What is read covers what is promised of the locked batches. -/
theorem safe_readReserved {query : BatchQuery} (bs : List InventoryBatch) {k : Dict ℕ ℤ → StockTx}
    (hholds : Holds w query bs s) (hsince : s.since w = none)
    (hk : ∀ reserved t, KnowsReserved calls w query bs reserved t →
      (stockDiscipline calls start strict).Safe w (k reserved) id t) :
    (stockDiscipline calls start strict).Safe w (readReserved (bs.map InventoryBatch.pk) k) id s := by
  intro t ht u hu
  have hrely : StockRely calls w (t.look w) u := hu.rely
  have hlooked : Holds w query bs (t.look w) := by
    have hheld := hholds.stable ht.rely
    exact ⟨hheld.nodup, hheld.mem, hheld.locked, hheld.matching⟩
  have hreading : u.since w = some t.clock := by
    have hnone : t.since w = none := ht.rely.since.trans hsince
    rw [hrely.since]
    show Function.update t.since w (some ((t.since w).getD t.clock)) w = some t.clock
    rw [Function.update_self, hnone]
    rfl
  have hheld := hlooked.stable hrely
  refine hk _ u ⟨hheld, fun b hb => ?_⟩
  rw [getD_activeReservedQuantities, if_pos (List.mem_map_of_mem hb), Int.ofNat_le]
  refine Table.total_mono (fun a ha => ?_)
  unfold promise
  split
  · next hcounts =>
    -- a row that counts was active when the clock was read
    have hact : a.isActive t.clock = true := by
      rcases hcounts.2 with hact | hclaimed
      · exact Allocation.isActive_mono hrely.clock hact
      · exact hu.good t.clock hreading a ha (hcounts.1 ▸ hheld.locked b hb) hclaimed
    exact le_of_eq (if_pos ⟨hcounts.1, hact⟩).symm
  · exact Nat.zero_le _

/-! ### Commits -/

section

variable {f : Db → Db} {note : List StockEntry}

/-- After the commit of `w`, no row counts that did not before. -/
theorem counts_commit (a : Allocation) (h : Counts calls (t.commit w f note) a) :
    Counts calls t a := counts_release w a h

/-- A commit that writes only locked rows disturbs nobody. -/
theorem rely_commit (hbatch : ∀ b ∈ t.db.batches, t.locks (.batch b.pk) ≠ some w →
      b ∈ (f t.db).batches)
    (hallocation : ∀ a ∈ t.db.allocations, t.locks (.allocation a.pk) ≠ some w →
      a ∈ (f t.db).allocations)
    (hpromised : ∀ k, t.locks (.batch k) ≠ some w →
      promised calls (t.commit w f note) k ≤ promised calls t k) {v : ω} (hv : v ≠ w) :
    StockRely calls v t (t.commit w f note) := by
  have hother : ∀ r, t.locks r = some v → t.locks r ≠ some w := by
    intro r hr hc
    exact hv (Option.some.inj (hr.symm.trans hc))
  exact ⟨le_rfl, Function.update_of_ne hv .., fun r hr => (Store.locks_release _ r).mpr ⟨hr, hv⟩,
    fun b hb hr => hbatch b hb (hother _ hr), fun a ha hr => hallocation a ha (hother _ hr),
    fun k hk => hpromised k (hother _ hk)⟩

/-- A commit that writes no batch and promises no more. -/
theorem StockInv.commitSame (h : StockInv calls start strict t) (hbatches : (f t.db).batches = t.db.batches)
    (hpromised : ∀ k, promised calls (t.commit w f []) k ≤ promised calls t k)
    (hdurable : DurableOrders calls (f t.db)) : StockInv calls start strict (t.commit w f []) where
  fits b hb := (hpromised b.pk).trans (h.fits b (hbatches ▸ hb))
  active hstrict b hb hpos := h.active hstrict b (hbatches ▸ hb) (lt_of_lt_of_le hpos (hpromised b.pk))
  durable := hdurable
  balanced b hb := by
    obtain ⟨b₀, hb₀, hpk, hq⟩ := h.balanced b (hbatches ▸ hb)
    exact ⟨b₀, hb₀, hpk, hq.trans (by simp [Store.commit])⟩

/-- Rewriting rows so that they count no more promises no more. -/
theorem promised_modify {p : Allocation → Bool} {u : Edit Allocation}
    (hf : (f t.db).allocations = t.db.allocations.modify p u)
    (hb : ∀ a, (u.apply a).batchId = a.batchId) (hq : ∀ a, (u.apply a).quantity = a.quantity)
    (hcounts : ∀ a ∈ t.db.allocations, p a = true →
      Counts calls (t.commit w f note) (u.apply a) → Counts calls t a) (k : ℕ) :
    promised calls (t.commit w f note) k ≤ promised calls t k := by
  show (f t.db).allocations.total _ ≤ t.db.allocations.total _
  rw [hf, Table.total_modify]
  refine Table.total_mono (fun a ha => ?_)
  by_cases hp : p a = true
  · rw [if_pos hp]
    exact promise_mono (hb a) (hq a) (hcounts a ha hp)
  · rw [if_neg hp]
    exact promise_mono rfl rfl (counts_commit a)

/-! ### Cancelling and promoting -/

/-- **Cancelling reservations.** -/
theorem safe_cancelTx {o : ℕ} : (stockDiscipline calls start strict).Safe w (cancelTx o) id s := by
  refine safe_selectForUpdate (P := fun _ => True) (fun _ xs => List.Perm.refl (id xs))
    (fun _ => rfl) (fun _ _ _ _ => trivial) ?_ trivial
  intro as s h _
  refine Discipline.safe_attempt (fun _ _ => ?_)
  intro t ht u hu
  have hheld := (h.stable ht.rely).stable hu.rely
  have hpromised : ∀ k, promised calls (u.commit w (saveStatus as .cancelled ∘ id) []) k
      ≤ promised calls u k :=
    promised_modify rfl (fun _ => rfl) (fun _ => rfl)
      (fun a _ _ hc => absurd hc (not_counts_of_status (by simp [setStatus])))
  have hdurable : DurableOrders calls (saveStatus as .cancelled u.db) :=
    hu.inv.durable.modify rfl (fun a hr => by simp [setStatus] at hr)
  exact ⟨hu.inv.commitSame rfl hpromised hdurable, fun v hv => rely_commit (fun b hb _ => hb)
    (fun a ha hfree => mem_modify_of_held hheld ha hfree) (fun k _ => hpromised k) hv⟩

/-- What a promotion makes durable was claimed. -/
theorem safe_promoteTx {o : ℕ} (hcall : (calls w).2 = .promote o) (hsince : s.since w = none) :
    (stockDiscipline calls start strict).Safe w (promoteTx o) id s := by
  intro t ht
  -- The promotion takes its instant from the clock before it locks a row.
  have hreading : (t.look w).since w = some t.clock := by
    have hnone : t.since w = none := ht.rely.since.trans hsince
    show Function.update t.since w (some ((t.since w).getD t.clock)) w = some t.clock
    rw [Function.update_self, hnone]
    rfl
  refine safe_selectForUpdate (P := fun s => s.since w = some t.clock)
    (fun _ xs => List.Perm.refl (id xs)) (fun _ => rfl)
    (fun _ _ hs hrely => hrely.since.trans hs) ?_ hreading
  intro as u h hread
  refine Discipline.safe_attempt (fun rows hrows => ?_)
  obtain ⟨rfl, -, -⟩ := promotable_eq_ok.mp hrows
  intro v hv x hx
  have hheld := ((h.filter (fun a => a.reservedUntil.all (fun u => t.clock < u))).stable
    hv.rely).stable hx.rely
  have hread' : x.since w = some t.clock := (hx.rely.since.trans hv.rely.since).trans hread
  generalize hrows' : as.filter (fun a => a.reservedUntil.all (fun u => t.clock < u)) = rows
    at hheld
  -- What it makes permanent was claimed at that instant, so it counts already.
  have hclaimed : ∀ a ∈ x.db.allocations, (rows.map Allocation.pk).contains a.pk = true →
      Counts calls x a := by
    intro a ha hp
    have hmem := eq_of_held hheld ha hp
    have hres := hheld.matching a hmem
    rw [← hrows', List.mem_filter] at hmem
    refine Or.inr ⟨w, ?_⟩
    simp [StockCall.claims, hcall, hread', hres, Allocation.isActive, (reservedOf_iff.mp hres).2,
      hmem.2]
  have hpromised : ∀ k, promised calls (x.commit w (makePermanent rows ∘ id) []) k
      ≤ promised calls x k :=
    promised_modify rfl (fun _ => rfl) (fun _ => rfl) (fun a ha hp _ => hclaimed a ha hp)
  have hdurable : DurableOrders calls (makePermanent rows x.db) :=
    hx.inv.durable.modify rfl (fun _ _ => rfl)
  exact ⟨hx.inv.commitSame rfl hpromised hdurable, fun v hv => rely_commit (fun b hb _ => hb)
    (fun a ha hfree => mem_modify_of_held hheld ha hfree) (fun k _ => hpromised k) hv⟩

/-! ### Reserving -/

/-- New rows promise at most the units they take. -/
theorem promised_withReservations {xs : List NewAllocation} (k : ℕ) :
    promised calls (t.commit w ((fun db => db.withReservations xs) ∘ id) []) k
      ≤ promised calls t k + unitsOnBatch xs k := by
  show (t.db.allocations.insertAll (xs.map NewAllocation.row)).total _ ≤ _
  rw [Table.total_insertAll]
  refine Nat.add_le_add (Table.total_mono fun a _ =>
    promise_mono rfl rfl (counts_commit a)) ?_
  refine (List.sum_le_sum (fun a _ => promise_le_quantity _ k a)).trans (le_of_eq ?_)
  exact Db.sum_rowsOf (fun a => if a.batchId = k then a.quantity else 0)
    (fun x => if x.batchPk = k then x.quantity else 0) (fun _ _ => rfl) _ _

/-- **Reserving a line from a pool.** -/
theorem safe_reserveTx {rt : Runtime} {line : OrderLine} {batches : BatchQuery} {quantity : ℤ}
    {reservedUntil : Option Time} (hplaced : PlacedOrders calls)
    (hpools : strict → OrderablePools calls)
    (hcall : (calls w).2 = .reserve line batches quantity reservedUntil) (hsince : s.since w = none) :
    (stockDiscipline calls start strict).Safe w (reserveTx rt line batches quantity reservedUntil)
      id s := by
  refine safe_selectForUpdate (P := fun s => s.since w = none)
    (fun _ xs => List.perm_insertionSort _ xs) (fun _ => rfl)
    (fun _ _ hs hrely => hrely.since.trans hs) ?_ hsince
  intro bs t h hnone
  refine Discipline.safe_attempt (fun _ _ => ?_)
  refine safe_readReserved _ h hnone (fun reserved u hknows => ?_)
  refine Discipline.safe_attempt (fun xs hxs => ?_)
  have hplan := planned_of_eq_ok h.nodup hxs
  intro v hv x hx
  -- What was read under the locks still covers what the batches promise at the commit.
  have hknows := (hknows.stable hv.rely).stable hx.rely
  have hinv : StockInv calls start strict x := hx.inv
  have hunits : ∀ b ∈ x.db.batches, unitsOnBatch xs b.pk ≠ 0 →
      b ∈ bs ∧ promised calls x b.pk + unitsOnBatch xs b.pk ≤ b.quantity := by
    intro b hb hpos
    obtain ⟨c, hc, hpk, hle⟩ := units_of_planned hknows hplan hpos
    have hcb : c = b := Table.eq_of_pk_eq (t := x.db.batches) (hknows.holds.mem c hc) hb hpk
    exact ⟨hcb ▸ hc, hcb ▸ hle⟩
  -- Each batch fits and stays active, placed orders stay durable, and the quantities are untouched.
  refine ⟨⟨fun b hb => ?_, fun hstrict b hb hpos => ?_, ?_, ?_⟩, fun v hv => ?_⟩
  · refine (promised_withReservations b.pk).trans ?_
    by_cases hpos : unitsOnBatch xs b.pk = 0
    · rw [hpos]
      exact hinv.fits b hb
    · exact (hunits b hb hpos).2
  · by_cases hnew : unitsOnBatch xs b.pk = 0
    · refine hinv.active hstrict b hb (lt_of_lt_of_le hpos ?_)
      exact (promised_withReservations b.pk).trans (le_of_eq (by rw [hnew]; rfl))
    · -- the batch was in the pool
      exact hpools hstrict w line batches quantity reservedUntil hcall b
        (hknows.holds.matching b (hunits b hb hnew).1)
  · intro v o hv a ha hr
    rcases Table.mem_insertAll.mp ha with ha | ha
    · exact hinv.durable v o hv a ha hr
    · obtain ⟨y, hy, n, rfl⟩ := Table.mem_made_map ha
      have horder : y.line.orderId = o := (reservedOf_iff.mp hr).1
      rw [(hplan.ofLine y hy).1] at horder
      show y.reservedUntil = none
      rw [(hplan.ofLine y hy).2]
      exact hplaced v w o line batches quantity reservedUntil hv hcall horder
  · intro b hb
    obtain ⟨b₀, hb₀, hpk, hq⟩ := hinv.balanced b hb
    exact ⟨b₀, hb₀, hpk, hq.trans (by simp [Store.commit])⟩
  · refine rely_commit (fun b hb _ => hb)
      (fun a ha _ => Table.mem_insertAll.mpr (Or.inl ha)) (fun k hfree => ?_) hv
    refine (promised_withReservations k).trans (le_of_eq ?_)
    by_cases hpos : unitsOnBatch xs k = 0
    · rw [hpos]
      rfl
    · obtain ⟨b, hb, rfl, -⟩ := units_of_planned hknows hplan hpos
      exact absurd (hknows.holds.locked b hb) hfree

/-! ### Correcting and closing -/

/-- A commit that rewrites one locked batch. -/
theorem commit_put {query : BatchQuery} {b row : InventoryBatch} {reserved : Dict ℕ ℤ}
    (hknows : KnowsReserved calls w query [b] reserved t) (hinv : StockInv calls start strict t)
    (hpk : row.pk = b.pk) (hfits : reserved.getD b.pk 0 ≤ row.quantity)
    (hactive : 0 < reserved.getD b.pk 0 → row.status = .active)
    (hnote : (row.quantity : ℤ) = replay b.pk note b.quantity)
    (hothers : ∀ k q, k ≠ b.pk → replay k note q = q) :
    StockInv calls start strict (t.commit w (saveBatches [row] ∘ id) note)
      ∧ ∀ v, v ≠ w → StockRely calls v t (t.commit w (saveBatches [row] ∘ id) note) := by
  have hb : b ∈ t.db.batches := hknows.holds.mem b (by simp)
  have hlocked : t.locks (.batch b.pk) = some w := hknows.holds.locked b (by simp)
  have hcovered := hknows.covered b (by simp)
  have hpromised : ∀ k, promised calls (t.commit w (saveBatches [row] ∘ id) note) k
      ≤ promised calls t k := promised_mono rfl counts_commit
  have hrow := hpromised b.pk
  -- The rows after the commit: the saved one and all others.
  have hmem : ∀ x ∈ (saveBatches [row] t.db).batches, x = row ∨ (x ∈ t.db.batches ∧ x.pk ≠ b.pk) := by
    intro x hx
    rcases Table.of_mem_put (show x ∈ t.db.batches.put row from hx) with rfl | ⟨hx, hne⟩
    · exact Or.inl rfl
    · exact Or.inr ⟨hx, fun hc => hne (hc.trans hpk.symm)⟩
  refine ⟨⟨fun x hx => ?_, fun hstrict x hx hpos => ?_, hinv.durable, fun x hx => ?_⟩, fun v hv => ?_⟩
  · rcases hmem x hx with rfl | ⟨hx, -⟩
    · rw [hpk]
      omega
    · exact (hpromised x.pk).trans (hinv.fits x hx)
  · rcases hmem x hx with rfl | ⟨hx, -⟩
    · rw [hpk] at hpos
      exact hactive (by omega)
    · exact hinv.active hstrict x hx (lt_of_lt_of_le hpos (hpromised x.pk))
  · rcases hmem x hx with rfl | ⟨hx, hne⟩
    · obtain ⟨b₀, hb₀, hpk₀, hq⟩ := hinv.balanced b hb
      refine ⟨b₀, hb₀, hpk₀.trans hpk.symm, ?_⟩
      show (x.quantity : ℤ) = replay x.pk (t.log ++ note) b₀.quantity
      rw [hpk, replay_append, ← hq]
      exact hnote
    · obtain ⟨b₀, hb₀, hpk₀, hq⟩ := hinv.balanced x hx
      refine ⟨b₀, hb₀, hpk₀, ?_⟩
      show (x.quantity : ℤ) = replay x.pk (t.log ++ note) b₀.quantity
      rw [replay_append, hothers _ _ hne]
      exact hq
  · refine rely_commit (fun x hx hfree => ?_) (fun a ha _ => ha) (fun k _ => hpromised k) hv
    refine Table.mem_put_of_ne (r := row) hx (fun hc => hfree ?_)
    rw [show x.pk = row.pk from hc, hpk]
    exact hlocked

/-- The steps that a correction and a closing share: lock the batch, read its reservations,
    the clock and the persisted row, and write one row. -/
theorem safe_writeRow {b : InventoryBatch} {query : BatchQuery} (hholds : Holds w query [b] s)
    (hsince : s.since w = none) (row : ℤ → Time → InventoryBatch → Result InventoryBatch)
    (note : List StockEntry)
    (hrow : ∀ {reserved now r}, row reserved now b = .ok r → r.pk = b.pk ∧ reserved ≤ r.quantity
      ∧ (0 < reserved → r.status = .active) ∧ (r.quantity : ℤ) = replay b.pk note b.quantity)
    (hothers : ∀ k q, k ≠ b.pk → replay k note q = q) :
    (stockDiscipline calls start strict).Safe w
      (readReserved [b.pk] fun reserved =>
        .clock fun now =>
        .read fun db =>
        .attempt (db.getBatch b.pk) fun persisted =>
        .attempt (row (reserved.getD b.pk 0) now persisted) fun r =>
        .write (saveBatches [r]) <|
        .commit note) id s := by
  refine safe_readReserved [b] hholds hsince (fun reserved t hknows => ?_)
  intro u hu v hv
  have hknows := ((hknows.stable hu.rely).look).stable hv.rely
  refine Discipline.safe_attempt (fun persisted hget => Discipline.safe_attempt (fun r hr => ?_))
  obtain ⟨hp, hpk'⟩ := Db.getBatch_eq_ok.mp hget
  -- the persisted row is the locked one
  have heq : persisted = b := Table.eq_of_pk_eq (t := v.db.batches) hp
    (hknows.holds.mem b (by simp)) hpk'
  subst heq
  obtain ⟨hkey, hfits, hactive, hnote⟩ := hrow hr
  intro x hx y hy
  exact commit_put ((hknows.stable hx.rely).stable hy.rely) hy.inv hkey hfits hactive hnote hothers

/-- **Correcting a batch.** -/
theorem safe_updateBatchTx {rt : Runtime} {batchPk : ℕ} {quantity : ℤ} {bestBefore : Date}
    {location : String} {user : Option ℕ} (hsince : s.since w = none) :
    (stockDiscipline calls start strict).Safe w
      (updateBatchTx rt batchPk quantity bestBefore location user) id s := by
  refine safe_selectForUpdate (P := fun s => s.since w = none)
    (fun _ xs => List.Perm.refl (id xs)) (fun _ => rfl)
    (fun _ _ hs hrely => hrely.since.trans hs) ?_ hsince
  intro bs t h hnone
  refine Discipline.safe_attempt (fun b hb => Discipline.safe_attempt (fun _ _ => ?_))
  have hmem : b ∈ bs := List.mem_of_head? (orRaise_eq_ok.mp hb)
  refine safe_writeRow (h.head hmem) hnone
    (fun reserved now persisted => correctedRow { rt with now := now } b persisted reserved
      quantity bestBefore location user) [.set b.pk quantity.toNat] ?_ ?_
  -- The correction stays above the reserved units and writes what it logs.
  · intro reserved now r hr
    obtain ⟨-, hle, hq, -, location', rfl⟩ := correctedRow_eq_ok hr
    refine ⟨rfl, ?_, fun hpos => ?_, by simp [replay, StockEntry.apply]⟩
    · show reserved ≤ (quantity.toNat : ℤ)
      omega
    · show InventoryBatch.statusOf quantity.toNat = .active
      exact if_pos (by omega)
  · intro k q hk
    simp [replay, StockEntry.apply, hk.symm]

/-- **Closing a batch.** -/
theorem safe_closeBatchTx {rt : Runtime} {batchPk : ℕ} {user : Option ℕ}
    (hsince : s.since w = none) :
    (stockDiscipline calls start strict).Safe w (closeBatchTx rt batchPk user) id s := by
  refine safe_selectForUpdate (P := fun s => s.since w = none)
    (fun _ xs => List.Perm.refl (id xs)) (fun _ => rfl)
    (fun _ _ hs hrely => hrely.since.trans hs) ?_ hsince
  intro bs t h hnone
  refine Discipline.safe_attempt (fun b hb => ?_)
  have hmem : b ∈ bs := List.mem_of_head? (orRaise_eq_ok.mp hb)
  refine safe_writeRow (h.head hmem) hnone
    (fun reserved now persisted => closedRow { rt with now := now } b persisted reserved user) []
    ?_ (fun _ _ _ => rfl)
  -- A batch closes only when nothing is reserved on it.
  intro reserved now r hr
  obtain ⟨hle, rfl⟩ := closedRow_eq_ok.mp hr
  refine ⟨rfl, ?_, fun hpos => absurd hle (not_le.mpr hpos), rfl⟩
  show reserved ≤ (b.quantity : ℤ)
  omega

/-! ### Consuming -/

/-- Consuming durable reservations frees the units they promise. -/
theorem promised_consume {o : ℕ} {as : List Allocation} (h : Holds w (reservedOf o) as t)
    (hdurable : ∀ a ∈ as, a.reservedUntil = none)
    (hf : (f t.db).allocations = t.db.allocations.modify
      (fun a => (as.map Allocation.pk).contains a.pk) (setStatus .consumed)) (k : ℕ) :
    promised calls (t.commit w f note) k + (quantityByBatchPk as).getD k 0
      ≤ promised calls t k := by
  -- The units taken are those of the consumed allocations, row by row.
  have htaken : (quantityByBatchPk as).getD k 0 = t.db.allocations.total (fun a =>
      if (as.map Allocation.pk).contains a.pk then (if a.batchId = k then a.quantity else 0)
      else 0) := by
    rw [← Table.sum_select, ← (h.perm_select.map _).sum_eq]
    unfold quantityByBatchPk
    rw [Dict.getD_accumulate, List.map_map]
    rfl
  rw [htaken]
  show (f t.db).allocations.total _ + _ ≤ _
  rw [hf, Table.total_modify, ← Table.total_add]
  refine Table.total_mono (fun a ha => ?_)
  -- A consumed allocation promised its units and promises none now.
  by_cases hp : (as.map Allocation.pk).contains a.pk = true
  · have hmem := eq_of_held h ha hp
    have hact : a.isActive t.clock = true := by
      simp [Allocation.isActive, (reservedOf_iff.mp (h.matching a hmem)).2, hdurable a hmem]
    rw [if_pos hp, if_pos hp, promise_of_not_counts (not_counts_of_status (by simp [setStatus])),
      promise_of_counts (Or.inl hact), Nat.zero_add]
  · rw [if_neg hp, if_neg hp, Nat.add_zero]
    exact promise_mono rfl rfl (counts_commit a)

/-- A commit that consumes: each batch of the dictionary gives what its rows promise. -/
theorem commit_consume {o : ℕ} {as : List Allocation} {query : BatchQuery}
    {bs picked : List InventoryBatch} (has : Holds w (reservedOf o) as t) (hbs : Holds w query bs t)
    (hinv : StockInv calls start strict t) (hdurable : ∀ a ∈ as, a.reservedUntil = none)
    (hkeys : picked.map InventoryBatch.pk = (quantityByBatchPk as).keys)
    (hpicked : ∀ b ∈ picked, b ∈ bs ∧ (quantityByBatchPk as).getD b.pk 0 ≤ b.quantity)
    (hf : f = saveStatus as .consumed ∘ saveBatches
      (picked.map (takeUnits (fun k => (quantityByBatchPk as).getD k 0)).apply) ∘ id)
    (hnote : note = (quantityByBatchPk as).entries.map (fun e => .take e.1 e.2)) :
    StockInv calls start strict (t.commit w f note)
      ∧ ∀ v, v ≠ w → StockRely calls v t (t.commit w f note) := by
  have hmem : ∀ b ∈ picked, b ∈ t.db.batches := fun b hb => hbs.mem b (hpicked b hb).1
  have hallocations : (f t.db).allocations = t.db.allocations.modify
      (fun a => (as.map Allocation.pk).contains a.pk) (setStatus .consumed) := by rw [hf]; rfl
  have hpromised : ∀ k, promised calls (t.commit w f note) k + (quantityByBatchPk as).getD k 0
      ≤ promised calls t k := promised_consume has hdurable hallocations
  generalize quantityByBatchPk as = picks at *
  have hbatches : (f t.db).batches = t.db.batches.modify (fun b => picks.keys.contains b.pk)
      (takeUnits (fun k => picks.getD k 0)) := by
    rw [hf]
    exact congrArg Db.batches (saveBatches_picked hkeys hmem)
  -- a batch of the dictionary is locked, and holds what is taken from it
  have hholds : ∀ b ∈ t.db.batches, picks.keys.contains b.pk = true →
      t.locks (.batch b.pk) = some w ∧ picks.getD b.pk 0 ≤ b.quantity := by
    intro b hb hk
    rw [List.contains_iff_mem, ← hkeys] at hk
    obtain ⟨c, hc, hpk⟩ := List.mem_map.mp hk
    have hcb : c = b := Table.eq_of_pk_eq (t := t.db.batches) (hmem c hc) hb hpk
    subst hcb
    exact ⟨hbs.locked c (hpicked c hc).1, (hpicked c hc).2⟩
  have huntouched : ∀ k, ¬ picks.keys.contains k = true → picks.getD k 0 = 0 := by
    intro k hk
    by_contra hne
    obtain ⟨e, he, rfl⟩ := Dict.exists_of_getD_ne hne
    exact hk (List.contains_iff_mem.mpr (List.mem_map_of_mem he))
  refine ⟨⟨fun x hx => ?_, fun hstrict x hx hpos => ?_, ?_, fun x hx => ?_⟩, fun v hv => ?_⟩
  · obtain ⟨b, hb, rfl⟩ := Table.mem_modify.mp (hbatches ▸ hx)
    have hfits := hinv.fits b hb
    have hle := hpromised b.pk
    by_cases hk : picks.keys.contains b.pk = true
    · rw [if_pos hk]
      show promised calls _ b.pk ≤ b.quantity - picks.getD b.pk 0
      omega
    · rw [if_neg hk]
      omega
  · obtain ⟨b, hb, rfl⟩ := Table.mem_modify.mp (hbatches ▸ hx)
    have hfits := hinv.fits b hb
    have hle := hpromised b.pk
    by_cases hk : picks.keys.contains b.pk = true
    · rw [if_pos hk] at hpos ⊢
      have hpos : 0 < promised calls (t.commit w f note) b.pk := hpos
      show InventoryBatch.statusOf (b.quantity - picks.getD b.pk 0) = .active
      exact if_pos (by omega)
    · rw [if_neg hk] at hpos ⊢
      exact hinv.active hstrict b hb (by omega)
  · exact hinv.durable.modify hallocations (fun a hr => by simp [setStatus] at hr)
  · obtain ⟨b, hb, rfl⟩ := Table.mem_modify.mp (hbatches ▸ hx)
    obtain ⟨b₀, hb₀, hpk, hq⟩ := hinv.balanced b hb
    have hreplay : replay b.pk (t.log ++ note) b₀.quantity = b.quantity - picks.getD b.pk 0 := by
      rw [replay_append, hnote, replay_takes, ← hq]
    by_cases hk : picks.keys.contains b.pk = true
    · rw [if_pos hk]
      refine ⟨b₀, hb₀, hpk, (Eq.trans ?_ hreplay.symm)⟩
      exact Nat.cast_sub (hholds b hb hk).2
    · rw [if_neg hk]
      refine ⟨b₀, hb₀, hpk, (Eq.trans ?_ hreplay.symm)⟩
      simp [huntouched b.pk hk]
  · refine rely_commit (fun b hb hfree => ?_) (fun a ha hfree => ?_)
      (fun k _ => le_trans (Nat.le_add_right _ _) (hpromised k)) hv
    · rw [hbatches]
      exact Table.mem_modify.mpr ⟨b, hb, if_neg (fun hk => hfree (hholds b hb hk).1)⟩
    · rw [hallocations]
      exact mem_modify_of_held has ha hfree

/-- **Consuming an order's reservations.** -/
theorem safe_consumeTx {rt : Runtime} {o : ℕ} (hcall : (calls w).2 = .consume o) :
    (stockDiscipline calls start strict).Safe w (consumeTx rt o) id s := by
  refine safe_selectForUpdate (P := fun _ => True) (fun _ xs => List.perm_insertionSort _ xs)
    (fun _ => rfl) (fun _ _ _ _ => trivial) ?_ trivial
  intro as s₁ has _
  refine Discipline.safe_attempt (fun _ _ => ?_)
  refine safe_selectForUpdate (P := Holds w (reservedOf o) as)
    (fun _ xs => List.Perm.refl (id xs)) (fun _ => rfl) (fun _ _ hs hrely => hs.stable hrely) ?_ has
  intro bs s₂ hbs has s₃ h₃
  refine Discipline.safe_attempt (fun rows hrows => ?_)
  obtain ⟨picked, hkeys, hpicked, rfl⟩ := pickedRows_eq_ok (hbs.stable h₃.rely).mem hrows
  intro s₄ h₄
  refine Discipline.safe_attempt (fun _ _ => ?_)
  intro s₅ h₅ t ht
  -- The batches were locked at `s₂`; three steps later they are as they were.
  have hrely : StockRely calls w s₂ t :=
    ((StockRely.trans h₃.rely h₄.rely).trans h₅.rely).trans ht.rely
  have has := has.stable hrely
  exact commit_consume has (hbs.stable hrely) ht.inv
    (fun a ha => ht.inv.durable w o hcall a (has.mem a ha) (has.matching a ha)) hkeys
    (fun b hb => ⟨(hpicked b hb).1, (hpicked b hb).2.le⟩) rfl rfl

/-- **Safety.** Every call keeps the discipline. -/
theorem safe_tx (hplaced : PlacedOrders calls) (hpools : strict → OrderablePools calls)
    (hsince : s.since w = none) :
    (stockDiscipline calls start strict).Safe w ((calls w).2.tx (calls w).1) id s := by
  cases hcall : (calls w).2 with
  | reserve => exact safe_reserveTx hplaced hpools hcall hsince
  | consume => exact safe_consumeTx hcall
  | cancel => exact safe_cancelTx
  | updateBatch => exact safe_updateBatchTx hsince
  | closeBatch => exact safe_closeBatchTx hsince
  | promote => exact safe_promoteTx hcall hsince

end

end

end SwedeSweets
