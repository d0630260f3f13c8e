import SwedeSweets.Guarantees.Stock

namespace SwedeSweets

open Relational Fallible Transition

/-!
# Batch quantity and status

The methods of a batch decide on an instance in memory and write a few of its fields over the row
persisted under its key.  Here the instance is any: what was read before any of the earlier calls,
with whatever a call that raised has left in it.

* `StockMove` — what a call may do to a row, one constructor per kind of write;
* `batch_lifecycle` — along any sequence of calls status and quantity of a row stay in step, a
  closed batch stays closed with the quantity it had, and a call that raises writes nothing.
-/

namespace InventoryBatch

/-- ACTIVE with stock and DEPLETED without, unless CLOSED. -/
def InStep (b : InventoryBatch) : Prop :=
  b.status ≠ .closed → (b.status = .active ↔ 0 < b.quantity) ∧ (b.status = .depleted ↔ b.quantity = 0)

/-- `pick` asked for any integer. -/
def pickUnits (rt : Runtime) (self persisted : InventoryBatch) (quantity : ℤ) :
    Result (InventoryBatch × InventoryBatch) := do
  require self.isAvailable
    (.invalidStockOperation ("Batch " ++ self.batchId ++ " is not available"))
  require (0 < quantity) (.invalidStockOperation "quantity must be positive")
  self.pick rt persisted quantity.toNat

end InventoryBatch

/-! ### Calls -/

/-- Call a method on an instance; batches are never deleted, so its row is there. -/
def Db.callOnBatch (db : Db) (self : InventoryBatch)
    (method : InventoryBatch → InventoryBatch → Result (InventoryBatch × InventoryBatch)) :
    Result Db := do
  let persisted ← db.getBatch self.pk
  let (_, row) ← method self persisted
  return { db with batches := db.batches.put row }

/-- The calls that write batches. -/
inductive BatchCall where
  | createBatch (productPk : ℕ) (quantity : ℤ) (bestBefore : Date) (location : String)
      (batchId : Option String) (today : Option Date) (allowNonFutureBestBefore : Bool)
      (user : Option ℕ)
  | adjustQuantity (self : InventoryBatch) (quantity : ℤ)
  | pick (self : InventoryBatch) (quantity : ℤ)
  | close (self : InventoryBatch) (user : Option ℕ)
  | markAsEdited (self : InventoryBatch) (user : Option ℕ)
  | updateBatch (batchPk : ℕ) (quantity : ℤ) (bestBefore : Date) (location : String)
      (user : Option ℕ)
  | closeBatch (batchPk : ℕ) (user : Option ℕ)

namespace BatchCall

def run (rt : Runtime) (db : Db) : BatchCall → Result Db
  | createBatch productPk quantity bestBefore location batchId today allow user =>
      SwedeSweets.createBatch rt db productPk quantity bestBefore location batchId today allow user
  | adjustQuantity self quantity =>
      db.callOnBatch self (fun self persisted => self.adjustQuantity rt persisted quantity)
  | pick self quantity =>
      db.callOnBatch self (fun self persisted => self.pickUnits rt persisted quantity)
  | close self user => db.callOnBatch self (fun self persisted => self.close rt persisted user)
  | markAsEdited self user =>
      db.callOnBatch self (fun self persisted => self.markAsEdited rt persisted user)
  | updateBatch batchPk quantity bestBefore location user =>
      SwedeSweets.updateBatch rt db batchPk quantity bestBefore location user
  | closeBatch batchPk user => SwedeSweets.closeBatch rt db batchPk user

end BatchCall

/-- A call, or anything else that happens in between and writes no batch. -/
inductive BatchStep : Db → Option (Runtime × BatchCall) → Db → Prop where
  | call {db : Db} (rt : Runtime) (c : BatchCall) :
      BatchStep db (some (rt, c)) (db.commit (c.run rt db))
  | elsewhere {db db' : Db} : db'.batches = db.batches → BatchStep db none db'

/-! ### What a call writes -/

/-- What may happen to the row of a batch. -/
inductive StockMove (b b' : InventoryBatch) : Prop where
  /-- Neither status nor quantity is touched. -/
  | kept (status : b'.status = b.status) (quantity : b'.quantity = b.quantity)
  /-- A batch that is not closed gets a quantity and the status that goes with it. -/
  | counted (isOpen : b.status ≠ .closed) (status : b'.status = InventoryBatch.statusOf b'.quantity)
  /-- The batch is closed, or closed again, with the quantity it has. -/
  | closed (status : b'.status = .closed) (quantity : b'.quantity = b.quantity)

namespace InventoryBatch

variable {rt : Runtime} {self persisted : InventoryBatch} {r : InventoryBatch × InventoryBatch}

/-- No quantity makes a batch CLOSED. -/
theorem statusOf_ne_closed (quantity : ℕ) : statusOf quantity ≠ .closed := by
  unfold statusOf
  split <;> simp

/-- Nothing leads out of CLOSED. -/
theorem not_closed_of_protect {u : Unit} (h : self.protectStatusTransition persisted = .ok u)
    (hself : self.status ≠ .closed) : persisted.status ≠ .closed := by
  intro hclosed
  unfold protectStatusTransition at h
  rw [hclosed, if_neg (fun he => hself he.symm)] at h
  simp [allowedStatusTransitions] at h

/-- Saving the quantity of an open instance; the row must be open too. -/
theorem save_quantity_eq_ok (hself : self.status ≠ .closed)
    (h : save rt self persisted [.quantity, .status] = .ok r) :
    persisted.status ≠ .closed ∧ r.2 = { persisted with
      quantity := self.quantity, status := statusOf self.quantity } := by
  have hpersisted : persisted.status ≠ .closed := by
    unfold save normalizeFields at h
    simp only [List.mem_cons, reduceCtorEq, List.not_mem_nil, or_false, or_self, or_true,
      if_true, if_false, pure_bind, syncStatusFromQuantity_of_open self hself, bind_eq_ok,
      Except.ok.injEq, exists_eq_left'] at h
    obtain ⟨_, hprotect, -⟩ := h
    exact not_closed_of_protect hprotect (statusOf_ne_closed _)
  obtain ⟨-, rfl⟩ := (save_quantity rt hself hpersisted).mp h
  exact ⟨hpersisted, rfl⟩

/-- A correction counts the row anew, whatever the instance held. -/
theorem adjustQuantity_writes {quantity : ℤ} (h : self.adjustQuantity rt persisted quantity = .ok r) :
    0 ≤ quantity ∧ persisted.status ≠ .closed ∧ r.2 = { persisted with
      quantity := quantity.toNat, status := statusOf quantity.toNat } := by
  unfold adjustQuantity at h
  simp only [bind_eq_ok, require_eq_ok, exists_const] at h
  obtain ⟨hself, hquantity, counted, hcounted, hsave⟩ := h
  rw [syncStatusFromQuantity_of_open { self with quantity := quantity.toNat } hself,
    Except.ok.injEq] at hcounted
  subst hcounted
  exact ⟨hquantity, save_quantity_eq_ok (statusOf_ne_closed _) hsave⟩

/-- A pick subtracts from the quantity in memory, which the row need not have any more. -/
theorem pickUnits_writes {quantity : ℤ} (h : self.pickUnits rt persisted quantity = .ok r) :
    0 < quantity ∧ quantity.toNat ≤ self.quantity ∧ persisted.status ≠ .closed
      ∧ r.2 = { persisted with
          quantity := self.quantity - quantity.toNat
          status := statusOf (self.quantity - quantity.toNat) } := by
  unfold pickUnits pick removeQuantity at h
  simp only [bind_eq_ok, require_eq_ok, exists_const] at h
  obtain ⟨⟨hactive, -⟩, hquantity, -, picked, ⟨-, hle, hpicked⟩, hsave⟩ := h
  have hself : self.status ≠ .closed := by
    rw [hactive]
    decide
  rw [syncStatusFromQuantity_of_open { self with quantity := self.quantity - quantity.toNat } hself,
    Except.ok.injEq] at hpicked
  subst hpicked
  exact ⟨hquantity, hle, save_quantity_eq_ok (statusOf_ne_closed _) hsave⟩

/-- The instance is CLOSED when it is saved, so that the quantity in memory is not looked at. -/
theorem close_writes {user : Option ℕ} (h : self.close rt persisted user = .ok r) :
    r.2 = { persisted with status := .closed, closedAt := some rt.now, closedBy := user } := by
  unfold close at h
  simp only [bind_eq_ok] at h
  obtain ⟨closing, hclosing, hsave⟩ := h
  -- Closing a closed batch again is allowed by `_transition_to`.
  have hstatus : closing.status = .closed := by
    unfold transitionTo at hclosing
    by_cases hself : self.status = .closed
    · rw [if_pos hself, pure_eq_ok] at hclosing
      rw [← hclosing, hself]
    · rw [if_neg hself] at hclosing
      simp only [bind_eq_ok, require_eq_ok, pure_eq_ok] at hclosing
      obtain ⟨-, -, rfl⟩ := hclosing
      rfl
  unfold save normalizeFields syncStatusFromQuantity requireColumns at hsave
  simp only [List.mem_cons, reduceCtorEq, List.not_mem_nil, or_false, or_true, if_true,
    if_false, pure_bind, hstatus, bind_eq_ok, pure_eq_ok] at hsave
  obtain ⟨-, -, rfl⟩ := hsave
  simp [writeFields]

/-- What marking a batch as edited writes. -/
theorem markAsEdited_writes {user : Option ℕ} (h : self.markAsEdited rt persisted user = .ok r) :
    r.2 = { persisted with editedAt := some rt.now, editedBy := user } := by
  unfold markAsEdited save normalizeFields requireColumns at h
  simp only [List.mem_cons, reduceCtorEq, List.not_mem_nil, or_self, if_false, pure_bind, pure_eq_ok]
    at h
  subst h
  simp [writeFields]

end InventoryBatch

/-! ### Steps and runs -/

/-- Every row moves, and a row that was not there is new stock. -/
structure BatchesMove (t t' : Table InventoryBatch) : Prop where
  evolves : t.Evolves StockMove t'
  source : ∀ b' ∈ t', (∃ b ∈ t, StockMove b b') ∨ (b'.status = .active ∧ 0 < b'.quantity)

namespace StockMove

variable {b b' : InventoryBatch}

/-- A batch left alone. -/
theorem refl (b : InventoryBatch) : StockMove b b := .kept rfl rfl

/-- A move keeps quantity and status in step. -/
theorem inStep (h : StockMove b b') (hb : b.InStep) : b'.InStep := by
  intro hopen
  cases h with
  | kept status quantity =>
    rw [status] at hopen
    rw [status, quantity]
    exact hb hopen
  | counted _ status =>
    rw [status]
    unfold InventoryBatch.statusOf
    by_cases hq : 0 < b'.quantity
    · simp [hq, Nat.pos_iff_ne_zero.mp hq]
    · simp [Nat.eq_zero_of_not_pos hq]
  | closed status => exact absurd status hopen

/-- No move leads out of CLOSED, nor changes a closed quantity. -/
theorem frozen (h : StockMove b b') (hb : b.status = .closed) :
    b'.status = .closed ∧ b'.quantity = b.quantity := by
  cases h with
  | kept status quantity => exact ⟨status.trans hb, quantity⟩
  | counted isOpen => exact absurd hb isOpen
  | closed status quantity => exact ⟨status, quantity⟩

end StockMove

namespace BatchesMove

variable {t : Table InventoryBatch} {b b' : InventoryBatch}

/-- No batch moved. -/
theorem refl (t : Table InventoryBatch) : BatchesMove t t where
  evolves := Table.Evolves.refl StockMove.refl t
  source b hb := Or.inl ⟨b, hb, .refl b⟩

/-- One batch makes a move. -/
theorem put (hb : b ∈ t) (hpk : b'.pk = b.pk) (hmove : StockMove b b') :
    BatchesMove t (t.put b') where
  evolves := Table.evolves_put StockMove.refl hb hpk hmove
  source x hx := by
    rcases Table.of_mem_put hx with rfl | ⟨hx, -⟩
    · exact Or.inl ⟨b, hb, hmove⟩
    · exact Or.inl ⟨x, hx, .refl x⟩

/-- A new batch is active and in stock. -/
theorem insert {d : NewRow InventoryBatch}
    (hnew : (d.make t.next).status = .active ∧ 0 < (d.make t.next).quantity) :
    BatchesMove t (t.insert d) where
  evolves := Table.evolves_insert StockMove.refl t d
  source x hx := by
    rcases Table.mem_insert.mp hx with hx | rfl
    · exact Or.inl ⟨x, hx, .refl x⟩
    · exact Or.inr hnew

end BatchesMove

section

variable {rt : Runtime} {db db' : Db}

/-- A method whose successful calls move the row moves the table. -/
theorem Db.callOnBatch_moves {self : InventoryBatch}
    {method : InventoryBatch → InventoryBatch → Result (InventoryBatch × InventoryBatch)}
    (hmethod : ∀ persisted r, method self persisted = .ok r →
      r.2.pk = persisted.pk ∧ StockMove persisted r.2)
    (h : db.callOnBatch self method = .ok db') : BatchesMove db.batches db'.batches := by
  unfold Db.callOnBatch at h
  simp only [bind_eq_ok, pure_eq_ok, Db.getBatch_eq_ok] at h
  obtain ⟨persisted, ⟨hpersisted, -⟩, r, hr, rfl⟩ := h
  obtain ⟨hpk, hmove⟩ := hmethod persisted r hr
  exact .put hpersisted hpk hmove

/-- One case per call: what its writes lemma says is a move. -/
theorem BatchCall.moves {c : BatchCall} (h : c.run rt db = .ok db') :
    BatchesMove db.batches db'.batches := by
  -- One case for each call; each says which row it writes.
  cases c with simp only [BatchCall.run] at h
  | createBatch =>
    obtain ⟨hquantity, -, product, batchId, location, rfl⟩ := createBatch_eq_ok h
    have hpos := Int.lt_toNat.mpr hquantity
    exact .insert ⟨if_pos hpos, hpos⟩
  | adjustQuantity self quantity =>
    refine Db.callOnBatch_moves (fun persisted r hr => ?_) h
    obtain ⟨-, hopen, hrow⟩ := InventoryBatch.adjustQuantity_writes hr
    rw [hrow]
    exact ⟨rfl, .counted hopen rfl⟩
  | pick self quantity =>
    refine Db.callOnBatch_moves (fun persisted r hr => ?_) h
    obtain ⟨-, -, hopen, hrow⟩ := InventoryBatch.pickUnits_writes hr
    rw [hrow]
    exact ⟨rfl, .counted hopen rfl⟩
  | close self user =>
    refine Db.callOnBatch_moves (fun persisted r hr => ?_) h
    rw [InventoryBatch.close_writes hr]
    exact ⟨rfl, .closed rfl rfl⟩
  | markAsEdited self user =>
    refine Db.callOnBatch_moves (fun persisted r hr => ?_) h
    rw [InventoryBatch.markAsEdited_writes hr]
    exact ⟨rfl, .kept rfl rfl⟩
  | updateBatch =>
    obtain ⟨b, hb, -, hopen, -, -, -, location, rfl⟩ := updateBatch_eq_ok h
    exact .put hb rfl (.counted hopen rfl)
  | closeBatch =>
    obtain ⟨b, hb, -, -, rfl⟩ := closeBatch_eq_ok.mp h
    exact .put hb rfl (.closed rfl rfl)

/-- A step moves batches, whether the call raises or not. -/
theorem BatchStep.moves {l : Option (Runtime × BatchCall)} (h : BatchStep db l db') :
    BatchesMove db.batches db'.batches := by
  cases h with
  | call rt c =>
    cases hrun : c.run rt db with
    | ok db' => exact c.moves hrun
    | error e => exact .refl _
  | elsewhere hbatches =>
    rw [hbatches]
    exact .refl _

/-- A closed batch is still there, closed and with the quantity it had. -/
def ClosedFrozen (db db' : Db) : Prop :=
  ∀ b ∈ db.batches, b.status = .closed →
    ∃ b' ∈ db'.batches, b'.pk = b.pk ∧ b'.status = .closed ∧ b'.quantity = b.quantity

/-- **Frozen.** Closed batches stay as they are. -/
theorem closedFrozen_of_run {ls : List (Option (Runtime × BatchCall))}
    (h : Run BatchStep db ls db') : ClosedFrozen db db' := by
  refine h.relates ?_ ?_ ?_
  · intro s b hb hclosed
    exact ⟨b, hb, rfl, hclosed, rfl⟩
  · intro s t u hst htu b hb hclosed
    obtain ⟨b', hb', hpk, hclosed', hquantity⟩ := hst b hb hclosed
    obtain ⟨b'', hb'', hpk', hclosed'', hquantity'⟩ := htu b' hb' hclosed'
    exact ⟨b'', hb'', hpk'.trans hpk, hclosed'', hquantity'.trans hquantity⟩
  · intro s l t hstep b hb hclosed
    obtain ⟨b', hb', hpk, hmove⟩ := hstep.moves.evolves b hb
    exact ⟨b', hb', hpk, hmove.frozen hclosed⟩

/-- **In step.** Quantity and status agree after every run. -/
theorem inStep_of_run {ls : List (Option (Runtime × BatchCall))} (h : Run BatchStep db ls db')
    (hdb : ∀ b ∈ db.batches, b.InStep) : ∀ b ∈ db'.batches, b.InStep := by
  refine h.invariant (I := fun db => ∀ b ∈ db.batches, b.InStep) (fun s l t hs hstep b' hb' => ?_) hdb
  rcases hstep.moves.source b' hb' with ⟨b, hb, hmove⟩ | ⟨hactive, hquantity⟩
  · exact hmove.inStep (hs b hb)
  · intro _
    rw [hactive]
    simp [hquantity, Nat.pos_iff_ne_zero.mp hquantity]

/-- **Quantity and status stay in step.** -/
theorem batch_lifecycle {ls : List (Option (Runtime × BatchCall))} (h : Run BatchStep db ls db')
    (hnone : ∀ b, b ∉ db.batches) :
    (∀ b ∈ db'.batches, b.InStep)
      ∧ (∀ ls' db'', Run BatchStep db' ls' db'' → ClosedFrozen db' db'')
      ∧ (∀ rt c e db'', c.run rt db' = .error e → BatchStep db' (some (rt, c)) db'' → db'' = db')
      ∧ (∀ rt self persisted quantity r,
        InventoryBatch.adjustQuantity rt self persisted quantity = .ok r →
          (r.2.quantity : ℤ) = quantity)
      ∧ ∀ rt self persisted quantity r,
        InventoryBatch.pickUnits rt self persisted quantity = .ok r →
          (r.2.quantity : ℤ) = self.quantity - quantity := by
  -- In step, frozen, nothing written by a raise, and the two quantities.
  refine ⟨inStep_of_run h (fun b hb => absurd hb (hnone b)), fun _ _ => closedFrozen_of_run,
    ?_, ?_, ?_⟩
  · intro rt c e db'' hraises hstep
    cases hstep with
    | call => rw [hraises]; rfl
  · intro rt self persisted quantity r hr
    obtain ⟨hquantity, -, hrow⟩ := InventoryBatch.adjustQuantity_writes hr
    rw [hrow]
    exact Int.toNat_of_nonneg hquantity
  · intro rt self persisted quantity r hr
    obtain ⟨hquantity, hle, -, hrow⟩ := InventoryBatch.pickUnits_writes hr
    rw [hrow]
    show ((self.quantity - quantity.toNat : ℕ) : ℤ) = _
    omega

end

namespace Shop

def emptyShelf : Db := { Db.empty with products := products }

/-- Five units, as read while the batch was open. -/
def staleBatch : InventoryBatch :=
  ⟨1, "B1", 1, 5, 9, "A", .active, 1, none, none, none, none, none⟩

/-- A batch is created and closed, and then counted and picked from by an instance read before. -/
def staleCalls : List (Runtime × BatchCall) :=
  [(runtime 1, .createBatch 1 5 9 "A" (some "B1") none false none), (runtime 2, .closeBatch 1 none),
    (runtime 3, .adjustQuantity staleBatch 7), (runtime 4, .pick staleBatch 2)]

def staleShelf : Db := staleCalls.foldl (fun db c => db.commit (c.2.run c.1 db)) emptyShelf

end Shop

/-- Calls committed one after another are a run. -/
theorem run_foldl_commit (db : Db) (calls : List (Runtime × BatchCall)) :
    Run BatchStep db (calls.map some) (calls.foldl (fun db c => db.commit (c.2.run c.1 db)) db) := by
  induction calls generalizing db with
  | nil => exact Run.nil db
  | cons c calls ih => exact (Run.single (BatchStep.call c.1 c.2)).append (ih _)

/-- A batch saved from a stale instance stays closed. -/
theorem batch_lifecycle_stale :
    (Shop.staleShelf.batches.rows.map (fun b => (b.status, b.quantity)) = [(.closed, 5)])
      ∧ ∀ b ∈ Shop.staleShelf.batches, b.InStep := by
  have hrows : Shop.staleShelf.batches.rows.map (fun b => (b.status, b.quantity)) = [(.closed, 5)] := by
    decide +kernel
  exact ⟨hrows, (batch_lifecycle (run_foldl_commit Shop.emptyShelf Shop.staleCalls)
    Table.not_mem_empty).1⟩

end SwedeSweets
