import SwedeSweets.Concurrency.StockSafety
import SwedeSweets.Guarantees.Stock
import Mathlib.Tactic.FinCases

namespace SwedeSweets

open Relational Fallible Transition Interleaving ReadCommitted

/-!
# Concurrent stock workers

Any number of workers run the stock services at once, each in a transaction of its own.

* `stock_lock_discipline` — without promotions, every state of every interleaving is without
  oversell, and no correction or pick is lost;
* `promotion_outlives_hold` — a promotion may make a reservation durable whose hold has
  expired, and whose units were reserved again in between: a batch is oversold;
* `promotion_safe` — promotions and reservations do not oversell as long as what a promotion
  has found active is active for whoever reads the reservations.
-/

abbrev StockPool (ω : Type) := Pool (StockStore ω) (Progress RowId Db Error StockEntry) ω

/-- All workers are about to begin, and nothing is locked. -/
def stockStart {ω : Type} (calls : ω → Runtime × StockCall) (now : Time) (db : Db) : StockPool ω :=
  ⟨⟨now, db, fun _ => none, fun _ => none, []⟩, fun w => .running id ((calls w).2.tx (calls w).1)⟩

/-- One step of some worker, or of the clock. -/
abbrev StockStep {ω : Type} [DecidableEq ω] : StockPool ω → Move ω → StockPool ω → Prop :=
  Step (transactions RowId Db Error StockEntry ω)

section

variable {ω : Type} {calls : ω → Runtime × StockCall} {now : Time} {db : Db}

/-- At the start only active reservations are promised. -/
theorem promised_start (k : ℕ) :
    promised calls (stockStart calls now db).shared k = db.activeReserved now k := by
  refine Table.total_congr (fun a _ => ?_)
  have hcounts : Counts calls (stockStart calls now db).shared a ↔ a.isActive now = true := by
    refine ⟨?_, Or.inl⟩
    rintro (hact | ⟨v, hv⟩)
    · exact hact
    · cases hcall : (calls v).2 <;> simp [StockCall.claims, stockStart, hcall] at hv
  unfold promise Allocation.activeOn
  simp only [hcounts]

/-- **Runs.** The stock invariant holds along every interleaving whose moves are heard. -/
theorem stockInv_of_run [DecidableEq ω] (strict : Prop) {t : StockPool ω} {ms : List (Move ω)}
    (hfits : ∀ b ∈ db.batches, db.activeReserved now b.pk ≤ b.quantity)
    (hactive : strict → ∀ b ∈ db.batches, 0 < db.activeReserved now b.pk → b.status = .active)
    (hdurable : DurableOrders calls db) (hplaced : PlacedOrders calls)
    (hpools : strict → OrderablePools calls)
    (h : Run (fun s m t => MoveOk (Heard calls) s m ∧ StockStep s m t) (stockStart calls now db)
      ms t) : StockInv calls db strict t.shared := by
  have hinv : StockInv calls db strict (stockStart calls now db).shared :=
    ⟨fun b hb => by rw [promised_start]; exact hfits b hb,
      fun hstrict b hb hpos => hactive hstrict b hb (by rwa [promised_start] at hpos),
      hdurable, fun b hb => ⟨b, hb, rfl, rfl⟩⟩
  exact Discipline.sound (D := stockDiscipline calls db strict) h hinv (fun w => rfl)
    (fun w => safe_tx hplaced hpools rfl)

end

/-! ### Without promotions -/

/-- No oversell, and the quantity of every batch is what the committed corrections and picks
    make of it, in the order in which they were committed. -/
structure StockKept {ω : Type} (db : Db) (s : StockStore ω) : Prop where
  fits : ∀ b ∈ s.db.batches, s.db.activeReserved s.clock b.pk ≤ b.quantity
  active : ∀ b ∈ s.db.batches, ∀ a ∈ s.db.allocations, a.batchId = b.pk →
    a.isActive s.clock = true → b.status = .active
  history : ∀ b ∈ s.db.batches, ∃ b₀ ∈ db.batches, b₀.pk = b.pk ∧
    (b.quantity : ℤ) = replay b.pk s.log b₀.quantity

/-- **The lock discipline.** Any number of workers reserve, consume, cancel, correct and close:
    no state of any interleaving is oversold, and no update of a quantity is lost. -/
theorem stock_lock_discipline {ω : Type} [DecidableEq ω] {calls : ω → Runtime × StockCall}
    {now : Time} {db : Db} {t : StockPool ω} {ms : List (Move ω)} (hstart : NoOversell now db)
    (hpromote : ∀ w orderPk, (calls w).2 ≠ .promote orderPk) (hdurable : DurableOrders calls db)
    (hplaced : PlacedOrders calls) (hpools : OrderablePools calls)
    (h : Run StockStep (stockStart calls now db) ms t) : StockKept db t.shared := by
  -- nothing is ever claimed
  have hheard : ∀ (w : ω) (s : StockStore ω), Heard calls w s := by
    rintro w s now - a - - ⟨v, hv⟩
    cases hcall : (calls v).2 with
    | promote o => exact absurd hcall (hpromote v o)
    | reserve | consume | cancel | updateBatch | closeBatch =>
      simp [StockCall.claims, hcall] at hv
  have hrun : Run (fun s m t => MoveOk (Heard calls) s m ∧ StockStep s m t)
      (stockStart calls now db) ms t := h.mono (fun m _ s t hst => by
    refine ⟨?_, hst⟩
    cases m with
    | work w => exact hheard w s.shared
    | env => trivial)
  have hinv := stockInv_of_run True hstart.fits (fun _ => hstart.active) hdurable
    hplaced (fun _ => hpools) hrun
  refine ⟨fun b hb => (activeReserved_le_promised t.shared b.pk).trans (hinv.fits b hb),
    fun b hb a ha hab hact => hinv.active trivial b hb ?_, hinv.balanced⟩
  refine lt_of_lt_of_le ?_ (Table.le_total ha (promise calls t.shared b.pk))
  rw [promise_of_counts (Or.inl hact), if_pos hab]
  exact a.quantity_pos

namespace Shop

/-- The morning, and a business draft of seven units. -/
def drafting : List (Runtime × Op) :=
  morning ++ [(runtime 3, .openDraft 8),
    (runtime 3, .addDraftLine 3 ⟨product, 7, businessOffer, none⟩)]

/-- The line of the draft. -/
def draftLine : OrderLine := ⟨3, 3, 1, 7, none, 1, none, none, by decide, by simp⟩

/-- The draft is reserved, the batch recounted, and the placed order consumed. -/
def shift : Fin 3 → Runtime × StockCall
  | 0 => (runtime 0, .reserve draftLine (listOrderableBatchesForProduct 0 1) 7 none)
  | 1 => (runtime 0, .updateBatch 1 20 30 "Shelf" none)
  | 2 => (runtime 0, .consume 1)

/-- The recount has locked the batch; the others wait for it and find twenty units. -/
def shiftSchedule : List (Slot (Fin 3)) :=
  [.work 0] ++ List.replicate 5 (.work 1) ++ [.tick 4] ++ List.replicate 2 (.work 2)
    ++ List.replicate 4 (.work 1) ++ List.replicate 6 (.work 0) ++ List.replicate 7 (.work 2)

end Shop

/-- Of the twenty units counted three are picked, and nine are reserved. -/
theorem stock_lock_discipline_shift :
    ∃ t ms, Run StockStep (stockStart Shop.shift 3 (State.init.after Shop.drafting).db) ms t ∧
      (∀ w, t.locals w = .committed) ∧
      t.shared.db.batches.rows.map InventoryBatch.quantity = [17] ∧
      t.shared.db.activeReserved t.shared.clock 1 = 9 ∧
      StockKept (State.init.after Shop.drafting).db t.shared := by
  -- The schedule is played out by evaluation.
  have hplay : (play (fun _ _ => true) Shop.shiftSchedule
      (stockStart Shop.shift 3 (State.init.after Shop.drafting).db)).any (fun t =>
        (∀ w, (t.locals w).isCommitted = true)
          ∧ t.shared.db.batches.rows.map InventoryBatch.quantity = [17]
          ∧ t.shared.db.activeReserved t.shared.clock 1 = 9) = true := by decide +kernel
  obtain ⟨t, ms, hrun, hend⟩ := run_of_play (fun _ _ => True) (fun _ _ _ => trivial) hplay
  obtain ⟨hcommitted, hquantity, hreserved⟩ := of_decide_eq_true hend
  have hrun : Run StockStep _ ms t := hrun.mono (fun _ _ _ _ hst => hst.2)
  -- The placed order's holds have no deadline.
  have hdurable : ∀ a ∈ (State.init.after Shop.drafting).db.allocations.rows,
      reservedOf 1 a = true → a.reservedUntil = none := by decide +kernel
  refine ⟨t, ms, hrun, fun w => Progress.isCommitted_iff.mp (hcommitted w), hquantity, hreserved,
    stock_lock_discipline ?_ ?_ ?_ ?_ ?_ hrun⟩
  · exact (inv_of_reachable (reachable_after Shop.drafting (by decide))).stock
  · intro w o
    fin_cases w <;> simp [Shop.shift]
  · intro v o hv
    fin_cases v <;> simp [Shop.shift] at hv
    subst hv
    exact hdurable
  · intro v w o line batches quantity reservedUntil hv hw hline
    fin_cases w <;> simp [Shop.shift] at hw
    exact hw.2.2.2.symm
  · intro w line batches quantity reservedUntil hw b hb
    fin_cases w <;> simp [Shop.shift] at hw
    rw [← hw.2.1] at hb
    exact (isOrderable_iff.mp (Bool.and_eq_true_iff.mp hb).2).1

/-! ### With promotions -/

namespace Shop

/-- The retail order of the morning is promoted while the draft reserves `quantity` units. -/
def promoting (quantity : ℤ) : Bool → Runtime × StockCall
  | true => (runtime 0, .promote 2)
  | false => (runtime 0, .reserve draftLine (listOrderableBatchesForProduct 0 1) quantity none)

/-- When the hold of the retail order ends. -/
def holdEnds : Time := 3 + retailPaymentReservationWindow

/-- The promotion reads the clock; when the clock stands at `later`, the reservation runs from
    begin to end, and then the promotion goes on. -/
def promotionSchedule (later : Time) : List (Slot Bool) :=
  [.tick (holdEnds - 1), .work true, .tick later] ++ List.replicate 7 (.work false)
    ++ List.replicate 4 (.work true)

end Shop

/-- **A promotion outlives its hold.** The hold of a retail order ends between the moment at
    which its promotion reads the clock and the moment at which a reservation does; the
    reservation takes the units the promotion then makes durable, and both commit. -/
theorem promotion_outlives_hold :
    ∃ (s : State) (t : StockPool Bool) (ms : List (Move Bool)),
      Reachable s ∧ Shop.draftLine ∈ s.db.lines ∧ Shop.draftLine.orderId ≠ 2 ∧
      (∀ b ∈ s.db.batches, s.db.activeReserved s.clock b.pk ≤ b.quantity) ∧
      Run StockStep (stockStart (Shop.promoting 7) s.clock s.db) ms t ∧
      t.locals true = .committed ∧ t.locals false = .committed ∧
      ∃ b ∈ t.shared.db.batches, b.quantity = 10 ∧
        t.shared.db.activeReserved t.shared.clock b.pk = 12 := by
  have hreachable : Reachable (State.init.after Shop.drafting) := reachable_after _ (by decide)
  have hline : Shop.draftLine ∈ (State.init.after Shop.drafting).db.lines.rows := by decide +kernel
  -- The promotion reads the clock, then waits until the hold has ended.
  have hplay : (play (fun _ _ => true) (Shop.promotionSchedule Shop.holdEnds)
      (stockStart (Shop.promoting 7) (State.init.after Shop.drafting).clock
        (State.init.after Shop.drafting).db)).any (fun t =>
          (t.locals true).isCommitted = true ∧ (t.locals false).isCommitted = true
            ∧ ∃ b ∈ t.shared.db.batches.rows, b.quantity = 10
              ∧ t.shared.db.activeReserved t.shared.clock b.pk = 12) = true := by decide +kernel
  obtain ⟨t, ms, hrun, hend⟩ := run_of_play (fun _ _ => True) (fun _ _ _ => trivial) hplay
  obtain ⟨hpromoted, hreserved, hbatch⟩ := of_decide_eq_true hend
  exact ⟨_, t, ms, hreachable, hline, by decide, (inv_of_reachable hreachable).stock.fits,
    hrun.mono (fun _ _ _ _ hst => hst.2), Progress.isCommitted_iff.mp hpromoted,
    Progress.isCommitted_iff.mp hreserved, hbatch⟩

/-- **Promotion.** Any number of workers promote and reserve.  In every interleaving in which
    the rows a running promotion has found active are also active for a reservation that has
    locked their batch and read the clock, no state is oversold. -/
theorem promotion_safe {ω : Type} [DecidableEq ω] {calls : ω → Runtime × StockCall}
    {now : Time} {db : Db} {t : StockPool ω} {ms : List (Move ω)}
    (hstart : ∀ b ∈ db.batches, db.activeReserved now b.pk ≤ b.quantity)
    (hcalls : ∀ w, (∃ orderPk, (calls w).2 = .promote orderPk)
      ∨ ∃ line batches quantity reservedUntil,
          (calls w).2 = .reserve line batches quantity reservedUntil)
    (h : Run (fun s m t => MoveOk (Heard calls) s m ∧ StockStep s m t) (stockStart calls now db)
      ms t) :
    ∀ b ∈ t.shared.db.batches, t.shared.db.activeReserved t.shared.clock b.pk ≤ b.quantity := by
  -- Nobody consumes, so what is said about consumption holds trivially.
  have hconsume : ∀ w o, (calls w).2 ≠ .consume o := by
    intro w o hw
    rcases hcalls w with ⟨_, hp⟩ | ⟨_, _, _, _, hr⟩
    · rw [hw] at hp
      cases hp
    · rw [hw] at hr
      cases hr
  have hinv := stockInv_of_run False hstart False.elim
    (fun v o hv => absurd hv (hconsume v o)) (fun v _ o _ _ _ _ hv => absurd hv (hconsume v o))
    False.elim h
  exact fun b hb => (activeReserved_le_promised t.shared b.pk).trans (hinv.fits b hb)

/-- While the hold lasts, the reservation counts it: five units are left. -/
theorem promotion_safe_held :
    ∃ t ms, Run (fun s m t => MoveOk (Heard (Shop.promoting 5)) s m ∧ StockStep s m t)
        (stockStart (Shop.promoting 5) 3 (State.init.after Shop.drafting).db) ms t ∧
      t.locals true = .committed ∧ t.locals false = .committed ∧
      t.shared.db.activeReserved Shop.holdEnds 1 = 10 ∧
      ∀ b ∈ t.shared.db.batches, t.shared.db.activeReserved t.shared.clock b.pk ≤ b.quantity := by
  -- The same schedule, but the promotion commits while the hold still runs.
  have hplay : (play (fun w s => decide (Heard (Shop.promoting 5) w s))
      (Shop.promotionSchedule (Shop.holdEnds - 1))
      (stockStart (Shop.promoting 5) 3 (State.init.after Shop.drafting).db)).any (fun t =>
        (t.locals true).isCommitted = true ∧ (t.locals false).isCommitted = true
          ∧ t.shared.db.activeReserved Shop.holdEnds 1 = 10) = true := by decide +kernel
  obtain ⟨t, ms, hrun, hend⟩ := run_of_play _ (fun _ _ hgood => of_decide_eq_true hgood) hplay
  obtain ⟨hpromoted, hreserved, hunits⟩ := of_decide_eq_true hend
  refine ⟨t, ms, hrun, Progress.isCommitted_iff.mp hpromoted, Progress.isCommitted_iff.mp hreserved,
    hunits, promotion_safe ?_ ?_ hrun⟩
  · exact (inv_of_reachable (reachable_after Shop.drafting (by decide))).stock.fits
  · intro w
    cases w
    · exact Or.inr ⟨_, _, _, _, rfl⟩
    · exact Or.inl ⟨_, rfl⟩

end SwedeSweets
