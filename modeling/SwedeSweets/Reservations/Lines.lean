import SwedeSweets.Reservations.Effects

namespace SwedeSweets

open Relational Fallible

/-!
# Reserving the lines of an order

Every channel reserves an order with the same loop, one line after the other, each from a
pool of its own.  `reserveLines` says what the loop as a whole writes: rows that cover
every line exactly and fit the units that were free before the loop (`Reservations`).
-/

/-- The units some new reservations take from a batch. -/
def unitsOnBatch (xs : List NewAllocation) (batchPk : ℕ) : ℕ :=
  (xs.map (fun x => if x.batchPk = batchPk then x.quantity else 0)).sum

/-- The units some new reservations give a line. -/
def unitsOfLine (xs : List NewAllocation) (linePk : ℕ) : ℕ :=
  (xs.map (fun x => if x.line.pk = linePk then x.quantity else 0)).sum

@[simp] theorem unitsOnBatch_nil (k : ℕ) : unitsOnBatch [] k = 0 := rfl

@[simp] theorem unitsOfLine_nil (k : ℕ) : unitsOfLine [] k = 0 := rfl

/-- Units on a batch add up over the allocations. -/
@[simp] theorem unitsOnBatch_append (xs ys : List NewAllocation) (k : ℕ) :
    unitsOnBatch (xs ++ ys) k = unitsOnBatch xs k + unitsOnBatch ys k := by
  simp [unitsOnBatch]

/-- Units of a line add up over the allocations. -/
@[simp] theorem unitsOfLine_append (xs ys : List NewAllocation) (k : ℕ) :
    unitsOfLine (xs ++ ys) k = unitsOfLine xs k + unitsOfLine ys k := by
  simp [unitsOfLine]

/-- Reservations for one line give that line all their units and other lines none. -/
theorem unitsOfLine_of_line {xs : List NewAllocation} {line : OrderLine}
    (h : ∀ x ∈ xs, x.line = line) (k : ℕ) :
    unitsOfLine xs k = if line.pk = k then (xs.map NewAllocation.quantity).sum else 0 := by
  unfold unitsOfLine
  by_cases hk : line.pk = k
  · rw [if_pos hk]
    refine congrArg List.sum (List.map_congr_left (fun x hx => ?_))
    rw [h x hx, if_pos hk]
  · rw [if_neg hk, List.sum_eq_zero_iff]
    intro v hv
    obtain ⟨x, hx, rfl⟩ := List.mem_map.mp hv
    rw [h x hx, if_neg hk]

/-- A deadline that has not passed. -/
def Unexpired (now : Time) (reservedUntil : Option Time) : Prop :=
  ∀ u, reservedUntil = some u → now < u

/-- The rows new reservations get. -/
def rowsOf (n : ℕ) (xs : List NewAllocation) : List Allocation :=
  Table.made n (xs.map NewAllocation.row)

namespace Db

variable {db : Db} {xs ys : List NewAllocation}

/-- Reserving in two steps is reserving at once. -/
theorem withReservations_append (db : Db) (xs ys : List NewAllocation) :
    (db.withReservations xs).withReservations ys = db.withReservations (xs ++ ys) := by
  simp [withReservations, Table.insertAll]

/-- Summing a weight that does not look at the key over the new rows. -/
theorem sum_rowsOf (w : Allocation → ℕ) (w' : NewAllocation → ℕ)
    (h : ∀ x n, w (x.row.make n) = w' x) (n : ℕ) (xs : List NewAllocation) :
    ((rowsOf n xs).map w).sum = (xs.map w').sum := by
  unfold rowsOf
  induction xs generalizing n with
  | nil => rfl
  | cons x xs ih =>
    simp only [List.map_cons, Table.made, List.sum_cons, h, ih]

/-- A new allocation is active as long as it has not expired. -/
theorem isActive_row {now : Time} {x : NewAllocation} (n : ℕ) :
    (x.row.make n).isActive now = x.reservedUntil.all (fun u => now < u) := by
  simp [Allocation.isActive, NewAllocation.row]

/-- Unexpired reservations add their units to what a batch has actively reserved. -/
theorem activeReserved_withReservations {now : Time} (hxs : ∀ x ∈ xs, Unexpired now x.reservedUntil)
    (k : ℕ) :
    (db.withReservations xs).activeReserved now k = db.activeReserved now k + unitsOnBatch xs k := by
  unfold activeReserved withReservations
  rw [Table.total_insertAll]
  refine congrArg (_ + ·) ?_
  have hsum := sum_rowsOf (Allocation.activeOn now k)
    (fun x => if x.batchPk = k ∧ x.reservedUntil.all (fun u => decide (now < u)) = true
      then x.quantity else 0)
    (fun x n => by unfold Allocation.activeOn; rw [isActive_row]; rfl)
    db.allocations.next xs
  refine hsum.trans (congrArg List.sum (List.map_congr_left (fun x hx => ?_)))
  -- None of the new rows has expired.
  have hact : x.reservedUntil.all (fun u => decide (now < u)) = true := by
    cases hu : x.reservedUntil with
    | none => rfl
    | some u => simpa using hxs x hx u hu
  simp [hact]

end Db

/-- What a successful reservation of some lines writes. -/
structure Reservations (now : Time) (db : Db) (lines : List OrderLine)
    (reservedUntil : Option Time) (xs : List NewAllocation) : Prop where
  ofLines : ∀ x ∈ xs, x.line ∈ lines ∧ x.reservedUntil = reservedUntil
  onActive : ∀ x ∈ xs, ∃ b ∈ db.batches, b.pk = x.batchPk ∧ b.status = .active
    ∧ b.productId = x.line.productId
  exact : ∀ l ∈ lines, unitsOfLine xs l.pk = l.quantityInUnits
  fits : ∀ b ∈ db.batches, unitsOnBatch xs b.pk ≤ db.freeUnits now b

/-- A step of the loop reserves its line from some pool of ACTIVE batches. -/
def ReservesLine (rt : Runtime) (reservedUntil : Option Time) (f : Db → OrderLine → Result Db) :
    Prop :=
  ∀ db line db', f db line = .ok db' → ∃ batches : BatchQuery,
    (∀ b, batches b = true → b.status = .active) ∧
    reserveOrderLineFromPool rt db line batches line.quantityInUnits reservedUntil = .ok db'

/-- **The loop over the lines.** -/
theorem reserveLines {rt : Runtime} {reservedUntil : Option Time}
    {f : Db → OrderLine → Result Db} (hf : ReservesLine rt reservedUntil f)
    (hu : Unexpired rt.now reservedUntil) {lines : List OrderLine}
    (hnd : (lines.map OrderLine.pk).Nodup) {db db' : Db} (h : lines.foldlM f db = .ok db') :
    ∃ xs, db' = db.withReservations xs ∧ Reservations rt.now db lines reservedUntil xs := by
  -- By induction on the lines: what the first one reserves is taken when the others are planned.
  induction lines generalizing db with
  | nil =>
    simp only [List.foldlM_nil, pure_eq_ok] at h
    subst h
    exact ⟨[], rfl, by simp, by simp, by simp, fun b _ => Nat.zero_le _⟩
  | cons l ls ih =>
    rw [List.map_cons, List.nodup_cons] at hnd
    simp only [List.foldlM_cons, bind_eq_ok] at h
    obtain ⟨db₁, hl, hrest⟩ := h
    obtain ⟨batches, hactive, hres⟩ := hf _ _ _ hl
    obtain ⟨xs, rfl, hx⟩ := reservation_of_eq_ok hres
    obtain ⟨ys, rfl, hy⟩ := ih hnd.2 hrest
    have hlive : ∀ x ∈ xs, Unexpired rt.now x.reservedUntil := fun x hx' => by
      rw [(hx.ofLine x hx').2]; exact hu
    refine ⟨xs ++ ys, Db.withReservations_append _ _ _, ?_, ?_, ?_, ?_⟩
    · intro x hmem
      rcases List.mem_append.mp hmem with hmem | hmem
      · exact ⟨by rw [(hx.ofLine x hmem).1]; exact List.mem_cons_self .., (hx.ofLine x hmem).2⟩
      · exact ⟨List.mem_cons_of_mem _ (hy.ofLines x hmem).1, (hy.ofLines x hmem).2⟩
    · intro x hmem
      rcases List.mem_append.mp hmem with hmem | hmem
      · obtain ⟨b, hb, hpk, hp, hprod⟩ := hx.fromPool x hmem
        exact ⟨b, hb, hpk, hactive b hp, by rw [(hx.ofLine x hmem).1]; exact hprod⟩
      · exact hy.onActive x hmem
    · intro l' hl'
      rw [unitsOfLine_append, unitsOfLine_of_line (fun x hm => (hx.ofLine x hm).1), hx.exact]
      rcases List.mem_cons.mp hl' with rfl | hmem
      · -- the later lines give the head line nothing
        have hzero : unitsOfLine ys l'.pk = 0 := by
          unfold unitsOfLine
          rw [List.sum_eq_zero_iff]
          intro v hv
          obtain ⟨y, hy', rfl⟩ := List.mem_map.mp hv
          refine if_neg (fun he => hnd.1 ?_)
          exact List.mem_map.mpr ⟨y.line, (hy.ofLines y hy').1, he⟩
        rw [if_pos rfl, hzero, Nat.add_zero]
      · have hne : l.pk ≠ l'.pk := fun he => hnd.1 (List.mem_map.mpr ⟨l', hmem, he.symm⟩)
        rw [if_neg hne, Nat.zero_add, hy.exact l' hmem]
    · intro b hb
      have hfirst : unitsOnBatch xs b.pk ≤ db.freeUnits rt.now b := hx.fits b hb
      have hsecond := hy.fits b hb
      unfold Db.freeUnits at hfirst hsecond ⊢
      rw [Db.activeReserved_withReservations hlive] at hsecond
      rw [unitsOnBatch_append]
      omega

end SwedeSweets
