import SwedeSweets.Inventory.Services
import SwedeSweets.Reservations.Lines

namespace SwedeSweets

open Relational Fallible

/-!
# No oversell

`NoOversell now db`: the active reservations of every batch fit its physical quantity, and
a batch that has an active reservation is ACTIVE.  One lemma per kind of write says that it
is kept: time passing, releasing, reserving, promoting, consuming, and the three inventory
services.
-/

/-- **No oversell.** -/
structure NoOversell (now : Time) (db : Db) : Prop where
  fits : ∀ b ∈ db.batches, db.activeReserved now b.pk ≤ b.quantity
  active : ∀ b ∈ db.batches, 0 < db.activeReserved now b.pk → b.status = .active

namespace NoOversell

variable {now : Time} {db : Db}

/-- Time passing only lets reservations lapse. -/
theorem later {later : Time} (h : NoOversell now db) (hle : now ≤ later) : NoOversell later db where
  fits b hb := le_trans (db.activeReserved_anti hle b.pk) (h.fits b hb)
  active b hb hpos := h.active b hb (lt_of_lt_of_le hpos (db.activeReserved_anti hle b.pk))

/-- Fewer active reservations on the same batches. -/
theorem release {db' : Db} (h : NoOversell now db) (hbatches : db'.batches = db.batches)
    (hle : ∀ k, db'.activeReserved now k ≤ db.activeReserved now k) : NoOversell now db' where
  fits b hb := le_trans (hle b.pk) (h.fits b (hbatches ▸ hb))
  active b hb hpos := h.active b (hbatches ▸ hb) (lt_of_lt_of_le hpos (hle b.pk))

/-- A write that touches neither batches nor allocations. -/
theorem frame {db' : Db} (h : NoOversell now db) (hbatches : db'.batches = db.batches)
    (hallocations : db'.allocations = db.allocations) : NoOversell now db' :=
  h.release hbatches (fun k => by unfold Db.activeReserved; rw [hallocations])

/-- Without batches nothing is oversold. -/
theorem empty (now : Time) : NoOversell now Db.empty where
  fits b hb := absurd hb (Table.not_mem_empty b)
  active b hb _ := absurd hb (Table.not_mem_empty b)

/-! ### Releasing and promoting -/

/-- Ending reservations releases units. -/
theorem setStatus {p : Allocation → Bool} {status : AllocationStatus} (hst : status ≠ .reserved)
    (h : NoOversell now db) :
    NoOversell now { db with allocations := db.allocations.modify p (setStatus status) } := by
  refine h.release rfl (fun k => ?_)
  unfold Db.activeReserved
  rw [Table.total_modify]
  refine Table.total_mono (fun a _ => ?_)
  by_cases hp : p a = true
  · rw [if_pos hp]
    have hoff : ((SwedeSweets.setStatus status).apply a).isActive now = false := by
      simp [Allocation.isActive, SwedeSweets.setStatus, hst]
    simp [Allocation.activeOn, hoff]
  · rw [if_neg hp]

/-- Deleting allocations releases units. -/
theorem delete {p : Allocation → Bool} (h : NoOversell now db) :
    NoOversell now { db with allocations := db.allocations.delete p } := by
  refine h.release rfl (fun k => ?_)
  unfold Db.activeReserved
  rw [Table.total_delete]
  refine Table.total_mono (fun a _ => ?_)
  by_cases hp : p a = true
  · rw [if_pos hp]; exact Nat.zero_le _
  · rw [if_neg hp]

/-- Promoting active reservations changes no active sum. -/
theorem promote {p : Allocation → Bool} (hp : ∀ a, p a = true → a.isActive now = true)
    (h : NoOversell now db) :
    NoOversell now { db with allocations := db.allocations.modify p clearReservedUntil } := by
  refine h.release rfl (fun k => le_of_eq ?_)
  unfold Db.activeReserved
  rw [Table.total_modify]
  refine Table.total_congr (fun a _ => ?_)
  -- A promoted allocation was active and stays so.
  by_cases hpa : p a = true
  · have hact := hp a hpa
    have hst : a.status = .reserved := by
      unfold Allocation.isActive at hact
      simp only [Bool.and_eq_true, decide_eq_true_eq] at hact
      exact hact.1
    have hact' : (clearReservedUntil.apply a).isActive now = true := by
      simp [Allocation.isActive, clearReservedUntil, hst]
    rw [if_pos hpa]
    unfold Allocation.activeOn
    rw [hact', hact]
    rfl
  · rw [if_neg hpa]

/-! ### Reserving -/

/-- New reservations take free units of ACTIVE batches. -/
theorem reserve {lines : List OrderLine} {reservedUntil : Option Time} {xs : List NewAllocation}
    (hu : Unexpired now reservedUntil) (hxs : Reservations now db lines reservedUntil xs)
    (h : NoOversell now db) : NoOversell now (db.withReservations xs) := by
  -- All new allocations count.
  have hlive : ∀ x ∈ xs, Unexpired now x.reservedUntil := fun x hx => by
    rw [(hxs.ofLines x hx).2]; exact hu
  constructor
  · intro b hb
    have hfree := hxs.fits b hb
    have hfits := h.fits b hb
    rw [Db.activeReserved_withReservations hlive]
    unfold Db.freeUnits at hfree
    omega
  · intro b hb hpos
    rw [Db.activeReserved_withReservations hlive] at hpos
    by_cases hold : 0 < db.activeReserved now b.pk
    · exact h.active b hb hold
    · -- the batch was picked, and picks are from ACTIVE batches
      have hpick : unitsOnBatch xs b.pk ≠ 0 := by omega
      unfold unitsOnBatch at hpick
      rw [ne_eq, List.sum_eq_zero_iff] at hpick
      push Not at hpick
      obtain ⟨v, hv, hv0⟩ := hpick
      obtain ⟨x, hx, rfl⟩ := List.mem_map.mp hv
      have hxb : x.batchPk = b.pk := by
        by_contra hne
        exact hv0 (if_neg hne)
      obtain ⟨b', hb', hpk, hact, -⟩ := hxs.onActive x hx
      rw [← Table.eq_of_pk_eq hb' hb (hpk.trans hxb)]
      exact hact

/-! ### Consuming -/

/-- What an order has reserved durably is part of what is actively reserved; consuming it
    takes it out of the active sum. -/
theorem activeReserved_consumed (now : ℕ) {o : ℕ}
    (hdurable : ∀ a ∈ db.allocations, reservedOf o a = true → a.isActive now = true) (k : ℕ) :
    (db.consumed o).activeReserved now k + db.reservedBy o k = db.activeReserved now k := by
  unfold Db.activeReserved Db.reservedBy Db.consumed
  rw [Table.total_modify, ← Table.total_add]
  refine Table.total_congr (fun a ha => ?_)
  by_cases hr : reservedOf o a = true
  · have hact := hdurable a ha hr
    have hoff : ((SwedeSweets.setStatus .consumed).apply a).isActive now = false := by
      simp [Allocation.isActive, SwedeSweets.setStatus]
    rw [if_pos hr]
    unfold Allocation.activeOn
    by_cases hk : a.batchId = k <;> simp [hr, hact, hoff, hk]
  · simp [hr]

/-- Consuming an order's durable reservations keeps the invariant. -/
theorem consume {o : ℕ}
    (hdurable : ∀ a ∈ db.allocations, reservedOf o a = true → a.isActive now = true)
    (h : NoOversell now db) : NoOversell now (db.consumed o) := by
  have hsum := activeReserved_consumed now hdurable
  constructor
  · intro b' hb'
    obtain ⟨b, hb, rfl⟩ := Table.mem_modify.mp hb'
    have hfits := h.fits b hb
    have hb := hsum b.pk
    -- A picked batch loses as many units as reservations.
    by_cases hpos : 0 < db.reservedBy o b.pk
    · rw [if_pos (by simpa using hpos)]
      show (db.consumed o).activeReserved now b.pk ≤ b.quantity - db.reservedBy o b.pk
      omega
    · rw [if_neg (by simpa using hpos)]
      omega
  · intro b' hb' hact
    obtain ⟨b, hb, rfl⟩ := Table.mem_modify.mp hb'
    have hfits := h.fits b hb
    have heq := hsum b.pk
    by_cases hpos : 0 < db.reservedBy o b.pk
    · rw [if_pos (by simpa using hpos)] at hact ⊢
      have hact' : 0 < (db.consumed o).activeReserved now b.pk := hact
      show InventoryBatch.statusOf (b.quantity - db.reservedBy o b.pk) = .active
      exact if_pos (by omega)
    · rw [if_neg (by simpa using hpos)] at hact ⊢
      exact h.active b hb (by omega)

/-- **Packing has stock.** Durable reservations can always be consumed. -/
theorem consume_ok {rt : Runtime} {o : ℕ} (h : NoOversell rt.now db)
    (hsome : ∃ a ∈ db.allocations, reservedOf o a = true)
    (hdurable : ∀ a ∈ db.allocations, reservedOf o a = true → a.isActive rt.now = true)
    (hbatch : ∀ a ∈ db.allocations, ∃ b ∈ db.batches, b.pk = a.batchId)
    (hcolumn : ∀ b ∈ db.batches, b.quantity ≤ maxInteger) :
    consumeReservationsForOrder rt db o = .ok (db.consumed o) := by
  refine consumeReservationsForOrder_eq_ok.mpr ⟨hsome, fun k hk => ?_, rfl⟩
  have hsum := activeReserved_consumed rt.now hdurable k
  obtain ⟨a, ha, -, rfl⟩ := Db.reservedBy_pos.mp hk
  obtain ⟨b, hb, hpk⟩ := hbatch a ha
  have hfits := h.fits b hb
  rw [hpk] at hfits
  have hquantity := hcolumn b hb
  exact ⟨b, hb, hpk, h.active b hb (by rw [hpk]; omega), hk, by omega, by omega⟩

/-! ### Inventory services -/

/-- Overwriting one batch keeps the invariant when the new row keeps it for this batch. -/
theorem putBatch {b : InventoryBatch} (h : NoOversell now db) (hb : ∃ x ∈ db.batches, x.pk = b.pk)
    (hfits : db.activeReserved now b.pk ≤ b.quantity)
    (hactive : 0 < db.activeReserved now b.pk → b.status = .active) :
    NoOversell now { db with batches := db.batches.put b } := by
  constructor
  · intro x hx
    rcases (Table.mem_put hb).mp hx with rfl | ⟨hx, -⟩
    · exact hfits
    · exact h.fits x hx
  · intro x hx hpos
    rcases (Table.mem_put hb).mp hx with rfl | ⟨hx, -⟩
    · exact hactive hpos
    · exact h.active x hx hpos

/-- A new batch has no allocations yet. -/
theorem insertBatch {d : NewRow InventoryBatch} (h : NoOversell now db)
    (hbatch : ∀ a ∈ db.allocations, ∃ b ∈ db.batches, b.pk = a.batchId) :
    NoOversell now { db with batches := db.batches.insert d } := by
  -- No allocation is on the new batch yet.
  have hnew : db.activeReserved now (d.make db.batches.next).pk = 0 := by
    unfold Db.activeReserved
    rw [Table.total_eq_zero]
    intro a ha
    obtain ⟨b, hb, hpk⟩ := hbatch a ha
    have hlt : b.pk < db.batches.next := db.batches.bounded b hb
    have hpkd : (d.make db.batches.next).pk = db.batches.next := d.pk_make _
    unfold Allocation.activeOn
    exact if_neg (fun hc => by omega)
  constructor
  · intro b hb
    rcases Table.mem_insert.mp hb with hb | rfl
    · exact h.fits b hb
    · exact le_of_eq_of_le hnew (Nat.zero_le _)
  · intro b hb hpos
    rcases Table.mem_insert.mp hb with hb | rfl
    · exact h.active b hb hpos
    · exact absurd hnew (Nat.pos_iff_ne_zero.mp hpos)

/-- **A new batch.** -/
theorem createBatch {rt : Runtime} {db' : Db} {productPk : ℕ} {quantity : ℤ} {bestBefore : Date}
    {location : String} {batchId : Option String} {today : Option Date} {allow : Bool}
    {user : Option ℕ} (h : NoOversell now db)
    (hbatch : ∀ a ∈ db.allocations, ∃ b ∈ db.batches, b.pk = a.batchId)
    (hok : SwedeSweets.createBatch rt db productPk quantity bestBefore location batchId today
      allow user = .ok db') : NoOversell now db' := by
  obtain ⟨-, -, product, batchId, location, rfl⟩ := createBatch_eq_ok hok
  exact h.insertBatch hbatch

/-- A correction is never below the active reservations. -/
theorem updateBatch {rt : Runtime} {db' : Db} {batchPk : ℕ} {quantity : ℤ} {bestBefore : Date}
    {location : String} {user : Option ℕ} (h : NoOversell rt.now db)
    (hok : SwedeSweets.updateBatch rt db batchPk quantity bestBefore location user = .ok db') :
    NoOversell rt.now db' := by
  obtain ⟨b, hb, rfl, -, hle, -, -, location, rfl⟩ := updateBatch_eq_ok hok
  exact h.putBatch ⟨b, hb, rfl⟩ hle (fun hpos => if_pos (lt_of_lt_of_le hpos hle))

/-- A batch with active reservations is not closed. -/
theorem closeBatch {rt : Runtime} {db' : Db} {batchPk : ℕ} {user : Option ℕ}
    (h : NoOversell rt.now db)
    (hok : SwedeSweets.closeBatch rt db batchPk user = .ok db') : NoOversell rt.now db' := by
  obtain ⟨b, hb, rfl, hzero, rfl⟩ := closeBatch_eq_ok.mp hok
  exact h.putBatch ⟨b, hb, rfl⟩ (le_of_eq_of_le hzero (Nat.zero_le _))
    (fun hpos => absurd hzero (Nat.pos_iff_ne_zero.mp hpos))

end NoOversell

end SwedeSweets
