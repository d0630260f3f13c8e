import SwedeSweets.Reservations.Planning
import Mathlib.Algebra.BigOperators.Ring.Finset
import Mathlib.Data.Prod.Lex
import Mathlib.Data.String.Basic

namespace SwedeSweets

open Fallible

/-!
# FEFO planning is exact

`planBatchPicks` against its purpose, for pools of distinct batches:

* `pickBatches_short` — a loop that runs out of batches reports all that was allocatable;
* `fefoOrder_perm_eq` — the FEFO order does not depend on how the pool is listed;
* `FefoPlan` — what a plan should be: positive picks from distinct batches that sum to the
  request and use up every earlier batch;
* `fefo_planning_exact` — planning returns exactly when it should, and then a `FefoPlan`.
-/

/-- `missing_quantity` of `InsufficientReservationCapacity`. -/
def missingQuantity (requested available : ℤ) : ℤ := max (requested - available) 0

/-- The units allocatable from a pool. -/
def allocatableUnits (reserved : Dict ℕ ℤ) (pool : List BatchAvailability) : ℤ :=
  (pool.map (allocatableQuantity reserved)).sum

/-- The units a plan picks from a batch. -/
def unitsPicked (picks : List BatchPick) (batchPk : ℕ) : ℤ :=
  ((picks.filter (fun pick => pick.batchPk = batchPk)).map BatchPick.quantity).sum

/-- The capacity, as the sum the error reports. -/
theorem coe_capacity (reserved : Dict ℕ ℤ) (pool : List BatchAvailability) :
    (Greedy.capacity (freeUnits reserved) pool : ℤ) = allocatableUnits reserved pool := by
  induction pool with
  | nil => rfl
  | cons b bs ih =>
    show ((freeUnits reserved b + Greedy.capacity (freeUnits reserved) bs : ℕ) : ℤ)
      = allocatableQuantity reserved b + allocatableUnits reserved bs
    rw [Int.natCast_add, coe_freeUnits, ih]

/-! ### Shortage -/

/-- A loop that runs out of batches reports all that was allocatable. -/
theorem pickBatches_short (reserved : Dict ℕ ℤ) (requested : ℤ) (bs : List BatchAvailability)
    (r : ℕ) (total : ℤ) (picks : List BatchPick)
    (hshort : Greedy.capacity (freeUnits reserved) bs < r) :
    pickBatches reserved requested bs r total picks
      = .error (.insufficientReservationCapacity requested
          (total + allocatableUnits reserved bs)) := by
  -- By induction on the batches, with what is still missing.
  induction bs generalizing r total picks with
  | nil =>
    show Except.error _ = _
    rw [allocatableUnits, List.map_nil, List.sum_nil, Int.add_zero]
  | cons b bs ih =>
    rw [Greedy.capacity_cons] at hshort
    have hfree := coe_freeUnits reserved b
    have htotal : total + allocatableQuantity reserved b + allocatableUnits reserved bs
        = total + allocatableUnits reserved (b :: bs) := by
      rw [add_assoc]
      rfl
    rw [pickBatches]
    by_cases h0 : allocatableQuantity reserved b = 0
    · rw [if_pos h0, ih r _ _ (by omega), htotal]
    · -- the batch gives all it has, and that is not enough
      have hmin : min (allocatableQuantity reserved b) (r : ℤ) = allocatableQuantity reserved b := by
        omega
      have hrest : (r : ℤ) - allocatableQuantity reserved b = ((r - freeUnits reserved b : ℕ) : ℤ) := by
        omega
      simp only [hmin]
      rw [if_neg h0, if_neg (by omega), hrest, ih _ _ _ (by omega), htotal]

/-- Planning with too little to allocate reports the request and what there is. -/
theorem planBatchPicks_short {pool : List BatchAvailability} {requested : ℤ} {reserved : Dict ℕ ℤ}
    (hpos : 0 < requested) (hone : ∃ p, OneProduct pool p)
    (hphys : ∀ b ∈ pool, 0 ≤ b.physicalQuantity) (hres : ∀ q ∈ reserved.values, 0 ≤ q)
    (hshort : allocatableUnits reserved pool < requested) :
    planBatchPicks pool requested reserved
      = .error (.insufficientReservationCapacity requested (allocatableUnits reserved pool)) := by
  unfold planBatchPicks
  rw [require_of hpos]
  -- The empty pool has its own error, with the same numbers.
  by_cases hne : pool = []
  · subst hne
    rfl
  · obtain ⟨r, rfl⟩ := Int.eq_ofNat_of_zero_le (le_of_lt hpos)
    have hcap : Greedy.capacity (freeUnits reserved) (fefoOrder pool) < r := by
      rw [capacity_fefoOrder]
      have hcoe := coe_capacity reserved pool
      omega
    have hunits : allocatableUnits reserved (fefoOrder pool) = allocatableUnits reserved pool :=
      ((fefoOrder_perm pool).map _).sum_eq
    rw [require_of hne, require_of ((oneProduct_iff hne).mpr hone), require_of hphys,
      require_of hres]
    show pickBatches reserved r (fefoOrder pool) r 0 [] = _
    rw [pickBatches_short reserved r _ r 0 [] hcap, hunits, Int.zero_add]

/-- What is reported as a shortage is one. -/
theorem planBatchPicks_insufficient {pool : List BatchAvailability} {requested : ℤ}
    {reserved : Dict ℕ ℤ} {r a : ℤ}
    (h : planBatchPicks pool requested reserved = .error (.insufficientReservationCapacity r a)) :
    r = requested ∧ a = allocatableUnits reserved pool ∧ a < requested := by
  unfold planBatchPicks at h
  simp only [bind_eq_error, require_eq_error, require_eq_ok, exists_const, reduceCtorEq, and_false,
    false_or, Error.insufficientReservationCapacity.injEq] at h
  -- The error comes from the empty pool or from the loop.
  obtain ⟨hpos, ⟨hne, rfl, rfl⟩ | ⟨hne, hone, hphys, hres, hloop⟩⟩ := h
  · rw [not_not] at hne
    subst hne
    exact ⟨rfl, rfl, hpos⟩
  · have hproduct := (oneProduct_iff hne).mp hone
    have hplan : planBatchPicks pool requested reserved
        = .error (.insufficientReservationCapacity r a) := by
      unfold planBatchPicks
      rw [require_of hpos, require_of hne, require_of hone, require_of hphys, require_of hres]
      exact hloop
    have hshort : allocatableUnits reserved pool < requested := by
      by_contra henough
      have hok := (planBatchPicks_eq_ok pool requested reserved _).mpr
        ⟨⟨hpos, hproduct, hphys, hres, by rw [coe_capacity]; omega⟩, rfl⟩
      rw [hplan] at hok
      cases hok
    rw [planBatchPicks_short hpos hproduct hphys hres hshort] at hplan
    cases hplan
    exact ⟨rfl, rfl, hshort⟩

/-! ### The FEFO order -/

/-- The sort key `(best_before, batch_code, batch_pk)`. -/
def BatchAvailability.fefoKey (b : BatchAvailability) : ℕ ×ₗ String ×ₗ ℕ :=
  toLex (b.bestBefore, toLex (b.batchCode, b.batchPk))

/-- FEFO compares the keys. -/
theorem BatchAvailability.fefoLe_iff {a b : BatchAvailability} :
    a.fefoLe b ↔ a.fefoKey ≤ b.fefoKey := by
  unfold fefoLe fefoKey
  rw [Prod.Lex.toLex_le_toLex, Prod.Lex.toLex_le_toLex]

instance : Std.Total BatchAvailability.fefoLe where
  total a b := by
    simp only [BatchAvailability.fefoLe_iff]
    exact le_total _ _

instance : IsTrans BatchAvailability BatchAvailability.fefoLe where
  trans a b c := by
    simp only [BatchAvailability.fefoLe_iff]
    exact le_trans

/-- The FEFO order is sorted. -/
theorem fefoOrder_pairwise (pool : List BatchAvailability) :
    (fefoOrder pool).Pairwise BatchAvailability.fefoLe :=
  List.pairwise_insertionSort _ _

/-- Batches of one key are one batch. -/
theorem eq_of_batchPk {pool : List BatchAvailability}
    (hpks : (pool.map BatchAvailability.batchPk).Nodup) {a b : BatchAvailability} (ha : a ∈ pool)
    (hb : b ∈ pool) (h : a.batchPk = b.batchPk) : a = b :=
  List.inj_on_of_nodup_map hpks ha hb h

/-- Two batches of a pool that sort alike are one batch. -/
theorem fefoLe_antisymm {pool : List BatchAvailability}
    (hpks : (pool.map BatchAvailability.batchPk).Nodup) {a b : BatchAvailability} (ha : a ∈ pool)
    (hb : b ∈ pool) (hab : a.fefoLe b) (hba : b.fefoLe a) : a = b := by
  have hkey : a.fefoKey = b.fefoKey :=
    le_antisymm (BatchAvailability.fefoLe_iff.mp hab) (BatchAvailability.fefoLe_iff.mp hba)
  exact eq_of_batchPk hpks ha hb (congrArg (fun k => (ofLex (ofLex k).2).2) hkey)

/-- The FEFO order does not depend on how the pool is listed. -/
theorem fefoOrder_perm_eq {pool pool' : List BatchAvailability}
    (hpks : (pool.map BatchAvailability.batchPk).Nodup) (hperm : pool'.Perm pool) :
    fefoOrder pool' = fefoOrder pool := by
  have hto := (fefoOrder_perm pool').trans hperm
  refine List.Perm.eq_of_pairwise (fun a b ha hb hab hba => ?_) (fefoOrder_pairwise pool')
    (fefoOrder_pairwise pool) (hto.trans (fefoOrder_perm pool).symm)
  exact fefoLe_antisymm hpks (hto.mem_iff.mp ha) ((fefoOrder_perm pool).mem_iff.mp hb) hab hba

/-- Planning does not depend on how the pool is listed. -/
theorem planBatchPicks_perm {pool pool' : List BatchAvailability} (requested : ℤ)
    (reserved : Dict ℕ ℤ) (hpks : (pool.map BatchAvailability.batchPk).Nodup)
    (hperm : pool'.Perm pool) :
    planBatchPicks pool' requested reserved = planBatchPicks pool requested reserved := by
  have hnil : pool' = [] ↔ pool = [] :=
    ⟨fun h => List.perm_nil.mp (h ▸ hperm).symm, fun h => List.perm_nil.mp (h ▸ hperm)⟩
  have hone : (pool'.map BatchAvailability.productId).dedup.length
      = (pool.map BatchAvailability.productId).dedup.length :=
    (hperm.map BatchAvailability.productId).dedup.length_eq
  have hsort : pool'.insertionSort BatchAvailability.fefoLe
      = pool.insertionSort BatchAvailability.fefoLe := fefoOrder_perm_eq hpks hperm
  unfold planBatchPicks
  simp only [ne_eq, hnil, hone, hperm.mem_iff, hsort]

/-! ### The plan -/

/-- A plan serves the request from distinct batches, first expiry first. -/
structure FefoPlan (pool : List BatchAvailability) (reserved : Dict ℕ ℤ) (requested : ℤ)
    (picks : List BatchPick) : Prop where
  distinct : (picks.map BatchPick.batchPk).Nodup
  within : ∀ pick ∈ picks, 0 < pick.quantity ∧
    ∃ b ∈ pool, b.batchPk = pick.batchPk ∧ pick.quantity ≤ allocatableQuantity reserved b
  exact : (picks.map BatchPick.quantity).sum = requested
  /-- A batch that is picked from leaves nothing on the batches before it. -/
  greedy : ∀ b ∈ pool, ∀ b' ∈ pool, 0 < unitsPicked picks b.batchPk → b' ≠ b → b'.fefoLe b →
    unitsPicked picks b'.batchPk = allocatableQuantity reserved b'

/-- Where picks are for distinct batches, a pick is all that its batch gives. -/
theorem unitsPicked_of_mem {picks : List BatchPick} (hpks : (picks.map BatchPick.batchPk).Nodup)
    {pick : BatchPick} (h : pick ∈ picks) : unitsPicked picks pick.batchPk = pick.quantity := by
  unfold unitsPicked
  -- By induction on the picks, whose batches are distinct.
  induction picks with
  | nil => cases h
  | cons p ps ih =>
    rw [List.map_cons, List.nodup_cons] at hpks
    have hrest : ∀ q ∈ ps, ¬ q.batchPk = p.batchPk := fun q hq hpk =>
      hpks.1 (List.mem_map.mpr ⟨q, hq, hpk⟩)
    rcases List.mem_cons.mp h with rfl | h
    · have hnone : ps.filter (fun q => q.batchPk = pick.batchPk) = [] :=
        List.filter_eq_nil_iff.mpr (fun q hq => by simpa using hrest q hq)
      rw [List.filter_cons_of_pos (by simp), hnone]
      simp
    · have hne : ¬ p.batchPk = pick.batchPk := fun hpk => hrest pick h hpk.symm
      rw [List.filter_cons_of_neg (by simpa using hne)]
      exact ih hpks.2 h

/-- A batch no pick is from gives nothing. -/
theorem unitsPicked_of_not_mem {picks : List BatchPick} {batchPk : ℕ}
    (h : ∀ pick ∈ picks, pick.batchPk ≠ batchPk) : unitsPicked picks batchPk = 0 := by
  unfold unitsPicked
  rw [List.filter_eq_nil_iff.mpr (fun pick hp => by simpa using h pick hp)]
  rfl

/-- The picks are the parts of the fill. -/
theorem mem_picksOf {xs : List (BatchAvailability × ℕ)} {pick : BatchPick} :
    pick ∈ picksOf xs ↔ ∃ b n, (b, n) ∈ xs ∧ pick = ⟨b.batchPk, n⟩ := by
  unfold picksOf
  rw [List.mem_map]
  constructor
  · rintro ⟨⟨b, n⟩, hx, rfl⟩
    exact ⟨b, n, hx, rfl⟩
  · rintro ⟨b, n, hx, rfl⟩
    exact ⟨(b, n), hx, rfl⟩

section

variable {pool : List BatchAvailability} {reserved : Dict ℕ ℤ} {r : ℕ}

/-- The picks of a filling are for distinct batches. -/
theorem picksOf_nodup (hpks : (pool.map BatchAvailability.batchPk).Nodup) :
    ((picksOf (Greedy.fill (freeUnits reserved) (fefoOrder pool) r)).map
      BatchPick.batchPk).Nodup := by
  have hmap : (picksOf (Greedy.fill (freeUnits reserved) (fefoOrder pool) r)).map BatchPick.batchPk
      = ((Greedy.fill (freeUnits reserved) (fefoOrder pool) r).map Prod.fst).map
          BatchAvailability.batchPk := by
    unfold picksOf
    simp only [List.map_map]
    rfl
  rw [hmap]
  refine ((Greedy.fill_sublist _ _ r).map _).nodup ?_
  exact ((fefoOrder_perm pool).map _).nodup_iff.mpr hpks

/-- What a filling gives to a batch of the pool is what the plan picks from it. -/
theorem unitsPicked_fill (hpks : (pool.map BatchAvailability.batchPk).Nodup)
    {b : BatchAvailability} {n : ℕ} (h : (b, n) ∈ Greedy.fill (freeUnits reserved) (fefoOrder pool) r) :
    unitsPicked (picksOf (Greedy.fill (freeUnits reserved) (fefoOrder pool) r)) b.batchPk = n :=
  unitsPicked_of_mem (picksOf_nodup hpks) (mem_picksOf.mpr ⟨b, n, h, rfl⟩)

/-- A batch of the pool that is picked from is in the filling. -/
theorem exists_fill_of_unitsPicked (hpks : (pool.map BatchAvailability.batchPk).Nodup)
    {b : BatchAvailability} (hb : b ∈ pool)
    (h : unitsPicked (picksOf (Greedy.fill (freeUnits reserved) (fefoOrder pool) r)) b.batchPk ≠ 0) :
    ∃ n, (b, n) ∈ Greedy.fill (freeUnits reserved) (fefoOrder pool) r := by
  by_contra hnone
  refine h (unitsPicked_of_not_mem (fun pick hpick hpk => hnone ?_))
  obtain ⟨x, n, hx, rfl⟩ := mem_picksOf.mp hpick
  have hmem := (fefoOrder_perm pool).mem_iff.mp (Greedy.mem_fill hx).1
  have heq : x = b := eq_of_batchPk hpks hmem hb hpk
  exact ⟨n, heq ▸ hx⟩

/-- **The plan.** The greedy filling in FEFO order is a FEFO plan. -/
theorem fefoPlan_fill (hpks : (pool.map BatchAvailability.batchPk).Nodup)
    (hcap : r ≤ Greedy.capacity (freeUnits reserved) pool) :
    FefoPlan pool reserved r
      (picksOf (Greedy.fill (freeUnits reserved) (fefoOrder pool) r)) := by
  refine ⟨picksOf_nodup hpks, ?_, ?_, ?_⟩
  · intro pick hpick
    obtain ⟨b, n, hmem, rfl⟩ := mem_picksOf.mp hpick
    obtain ⟨hb, hpos, hle⟩ := Greedy.mem_fill hmem
    have hfree := coe_freeUnits reserved b
    refine ⟨Int.natCast_pos.mpr hpos, b, (fefoOrder_perm pool).mem_iff.mp hb, rfl, ?_⟩
    show (n : ℤ) ≤ allocatableQuantity reserved b
    rw [← hfree]
    exact Int.ofNat_le.mpr hle
  · have hsum := Greedy.sum_fill (freeUnits reserved) (fefoOrder pool) r
    rw [capacity_fefoOrder, Nat.min_eq_left hcap] at hsum
    have hcast : ((picksOf (Greedy.fill (freeUnits reserved) (fefoOrder pool) r)).map
        BatchPick.quantity).sum
        = (((Greedy.fill (freeUnits reserved) (fefoOrder pool) r).map Prod.snd).sum : ℕ) := by
      unfold picksOf
      rw [Nat.cast_list_sum, List.map_map, List.map_map]
      rfl
    rw [hcast, hsum]
  · intro b hb b' hb' hpicked hne hle
    obtain ⟨n, hmem⟩ := exists_fill_of_unitsPicked hpks hb (ne_of_gt hpicked)
    obtain ⟨hpos, ys, zs, horder, hshare⟩ := Greedy.mem_fill_iff.mp hmem
    -- `b'` stands before `b`: it sorts no later, and is another batch
    have hys : b' ∈ ys := by
      have hsorted := fefoOrder_pairwise pool
      have hmem' : b' ∈ fefoOrder pool := (fefoOrder_perm pool).mem_iff.mpr hb'
      rw [horder] at hsorted hmem'
      rcases List.mem_append.mp hmem' with hys | hmem'
      · exact hys
      · rcases List.mem_cons.mp hmem' with heq | hzs
        · exact absurd heq hne
        · have hback := (List.pairwise_cons.mp (List.pairwise_append.mp hsorted).2.1).1 b' hzs
          exact absurd (fefoLe_antisymm hpks hb' hb hle hback) hne
    have hfree := coe_freeUnits reserved b'
    by_cases hzero : freeUnits reserved b' = 0
    · by_contra hused
      obtain ⟨m, hm⟩ := exists_fill_of_unitsPicked hpks hb' (fun hnone => hused (by
        rw [hnone, ← hfree, hzero]; rfl))
      obtain ⟨-, hmpos, hmle⟩ := Greedy.mem_fill hm
      have hmle : m ≤ freeUnits reserved b' := hmle
      omega
    · have hgiven : (b', freeUnits reserved b')
          ∈ Greedy.fill (freeUnits reserved) (fefoOrder pool) r := by
        rw [horder]
        exact Greedy.fill_greedy hys (by omega) hpos hshare
      rw [unitsPicked_fill hpks hgiven, hfree]

end

/-- **FEFO planning.** For distinct batches a plan exists iff the request is positive, the pool
    is of one product, no quantity is negative and enough can be allocated; it is a FEFO plan,
    whatever the order of the pool.  When only stock is short, this is what is reported, with the
    request, what can be allocated, and their difference; and nothing else is reported so. -/
theorem fefo_planning_exact (pool : List BatchAvailability) (requested : ℤ) (reserved : Dict ℕ ℤ)
    (hpks : (pool.map BatchAvailability.batchPk).Nodup) :
    ((∃ picks, planBatchPicks pool requested reserved = .ok picks) ↔
      0 < requested ∧ (∃ p, OneProduct pool p) ∧ (∀ b ∈ pool, 0 ≤ b.physicalQuantity)
        ∧ (∀ q ∈ reserved.values, 0 ≤ q) ∧ requested ≤ allocatableUnits reserved pool) ∧
    (∀ picks, planBatchPicks pool requested reserved = .ok picks →
      FefoPlan pool reserved requested picks) ∧
    (∀ pool', pool'.Perm pool →
      planBatchPicks pool' requested reserved = planBatchPicks pool requested reserved) ∧
    (0 < requested → (∃ p, OneProduct pool p) → (∀ b ∈ pool, 0 ≤ b.physicalQuantity) →
      (∀ q ∈ reserved.values, 0 ≤ q) → allocatableUnits reserved pool < requested →
      planBatchPicks pool requested reserved
        = .error (.insufficientReservationCapacity requested (allocatableUnits reserved pool))) ∧
    (∀ r a, planBatchPicks pool requested reserved
        = .error (.insufficientReservationCapacity r a) →
      r = requested ∧ a = allocatableUnits reserved pool
        ∧ missingQuantity r a = requested - allocatableUnits reserved pool) := by
  -- When it plans, what it plans, in any order of the pool, and how it fails short of units.
  refine ⟨?_, ?_, fun pool' hperm => planBatchPicks_perm requested reserved hpks hperm,
    fun hpos hone hphys hres hshort => planBatchPicks_short hpos hone hphys hres hshort, ?_⟩
  · simp only [planBatchPicks_eq_ok, coe_capacity, exists_and_left, exists_eq, and_true]
  · intro picks hok
    obtain ⟨⟨hpos, -, -, -, hcap⟩, rfl⟩ := (planBatchPicks_eq_ok _ _ _ _).mp hok
    obtain ⟨r, rfl⟩ := Int.eq_ofNat_of_zero_le (le_of_lt hpos)
    exact fefoPlan_fill hpks (Int.ofNat_le.mp hcap)
  · intro r a herr
    obtain ⟨rfl, rfl, hshort⟩ := planBatchPicks_insufficient herr
    exact ⟨rfl, rfl, max_eq_left (by omega)⟩

/-- Two batches, the later one listed first: for six units the earlier one is used up, and for
    nine there is one unit too few. -/
theorem fefo_planning_exact_two :
    FefoPlan [⟨1, "B", 1, 5, 20⟩, ⟨2, "A", 1, 4, 10⟩] (Dict.ofKeys [2] (fun _ => 1)) 6
        [⟨2, 3⟩, ⟨1, 3⟩] ∧
      planBatchPicks [⟨1, "B", 1, 5, 20⟩, ⟨2, "A", 1, 4, 10⟩] 9 (Dict.ofKeys [2] (fun _ => 1))
        = .error (.insufficientReservationCapacity 9 8) :=
  ⟨(fefo_planning_exact _ _ _ (by decide)).2.1 _ (by decide),
    (fefo_planning_exact _ _ _ (by decide)).2.2.2.1 (by decide) ⟨1, by simp [OneProduct]⟩ (by decide)
      (by decide) (by decide)⟩

end SwedeSweets
