import Mathlib.Algebra.BigOperators.Group.List.Basic
import Mathlib.Algebra.GroupWithZero.Nat
import Mathlib.Tactic.Common

namespace Greedy

/-!
# Greedy filling

`fill cap xs r` serves a request of `r` units from the bins `xs`, in order: every bin
gives as much as it can until the request is met, and bins that give nothing are left
out.  The amounts sum to `min r (Σ cap)` (`sum_fill`), each is positive and at most the
capacity of its bin, and the bins used form a sublist of `xs`.
-/

variable {α : Type}

/-- The capacity of a list of bins. -/
def capacity (cap : α → ℕ) (xs : List α) : ℕ := (xs.map cap).sum

/-- Serve `r` units from the bins, first bins first. -/
def fill (cap : α → ℕ) : List α → ℕ → List (α × ℕ)
  | [], _ => []
  | x :: xs, r =>
      if r = 0 then []
      else if cap x = 0 then fill cap xs r
      else (x, min (cap x) r) :: fill cap xs (r - min (cap x) r)

/-- Nothing is taken when nothing is needed. -/
@[simp] theorem fill_zero (cap : α → ℕ) (xs : List α) : fill cap xs 0 = [] := by
  cases xs <;> simp [fill]

/-- A bin without capacity is skipped. -/
theorem fill_cons_empty {cap : α → ℕ} {x : α} (hx : cap x = 0) (xs : List α) (r : ℕ) :
    fill cap (x :: xs) r = fill cap xs r := by
  by_cases hr : r = 0
  · simp [hr]
  · simp [fill, hr, hx]

/-- A bin with capacity gives its share of a positive request. -/
theorem fill_cons {cap : α → ℕ} {x : α} (hx : cap x ≠ 0) (xs : List α) {r : ℕ} (hr : r ≠ 0) :
    fill cap (x :: xs) r = (x, min (cap x) r) :: fill cap xs (r - min (cap x) r) := by
  simp [fill, hr, hx]

/-- The amounts given sum to the request, or to the whole capacity if that is less. -/
theorem sum_fill (cap : α → ℕ) (xs : List α) (r : ℕ) :
    ((fill cap xs r).map Prod.snd).sum = min r (capacity cap xs) := by
  induction xs generalizing r with
  | nil => simp [fill, capacity]
  | cons x xs ih =>
    have hc : capacity cap (x :: xs) = cap x + capacity cap xs := by simp [capacity]
    by_cases hr : r = 0
    · simp [hr]
    -- a source without capacity is passed over
    · by_cases hx : cap x = 0
      · rw [fill_cons_empty hx, ih, hc, hx, Nat.zero_add]
      · rw [fill_cons hx xs hr, List.map_cons, List.sum_cons, ih, hc]
        show min (cap x) r + min (r - min (cap x) r) (capacity cap xs) = _
        omega

/-- Every amount is positive and within the capacity of its bin. -/
theorem mem_fill {cap : α → ℕ} {xs : List α} {r : ℕ} {p : α × ℕ} (hp : p ∈ fill cap xs r) :
    p.1 ∈ xs ∧ 0 < p.2 ∧ p.2 ≤ cap p.1 := by
  induction xs generalizing r with
  | nil => simp [fill] at hp
  | cons x xs ih =>
    by_cases hr : r = 0
    · simp [hr] at hp
    -- a source without capacity is passed over
    · by_cases hx : cap x = 0
      · rw [fill_cons_empty hx] at hp
        obtain ⟨hmem, hpos, hle⟩ := ih hp
        exact ⟨List.mem_cons_of_mem _ hmem, hpos, hle⟩
      · rw [fill_cons hx xs hr] at hp
        rcases List.mem_cons.mp hp with rfl | hp
        · refine ⟨by simp, ?_, Nat.min_le_left _ _⟩
          show 0 < min (cap x) r
          omega
        · obtain ⟨hmem, hpos, hle⟩ := ih hp
          exact ⟨List.mem_cons_of_mem _ hmem, hpos, hle⟩

/-- The bins used stand in the order of the list, each at most as often as there. -/
theorem fill_sublist (cap : α → ℕ) (xs : List α) (r : ℕ) :
    ((fill cap xs r).map Prod.fst).Sublist xs := by
  induction xs generalizing r with
  | nil => simp [fill]
  | cons x xs ih =>
    by_cases hr : r = 0
    · simp [hr]
    -- each source is used once, or passed over
    · by_cases hx : cap x = 0
      · rw [fill_cons_empty hx]
        exact (ih r).cons x
      · rw [fill_cons hx xs hr, List.map_cons]
        exact (ih _).cons_cons x

/-! ### What one bin gives -/

/-- No sources have no capacity. -/
@[simp] theorem capacity_nil (cap : α → ℕ) : capacity cap [] = 0 := rfl

/-- The capacity of the first source and of the rest. -/
@[simp] theorem capacity_cons (cap : α → ℕ) (x : α) (xs : List α) :
    capacity cap (x :: xs) = cap x + capacity cap xs := rfl

/-- The capacity of two lists of sources. -/
@[simp] theorem capacity_append (cap : α → ℕ) (xs ys : List α) :
    capacity cap (xs ++ ys) = capacity cap xs + capacity cap ys := by
  simp [capacity]

/-- The later bins serve what the earlier ones left over. -/
theorem fill_append (cap : α → ℕ) (xs ys : List α) (r : ℕ) :
    fill cap (xs ++ ys) r = fill cap xs r ++ fill cap ys (r - capacity cap xs) := by
  induction xs generalizing r with
  | nil => simp [fill]
  | cons x xs ih =>
    by_cases hr : r = 0
    · simp [hr]
    · rw [List.cons_append, capacity_cons]
      by_cases hx : cap x = 0
      · rw [fill_cons_empty hx, fill_cons_empty hx, ih, hx, Nat.zero_add]
      -- what is left after the first source and after all of `xs`
      · have hrest : r - min (cap x) r - capacity cap xs = r - (cap x + capacity cap xs) := by omega
        rw [fill_cons hx _ hr, fill_cons hx _ hr, ih, hrest, List.cons_append]

/-- A bin gives its capacity or what the bins before it left over, whichever is less. -/
theorem mem_fill_iff {cap : α → ℕ} {xs : List α} {r : ℕ} {p : α × ℕ} :
    p ∈ fill cap xs r ↔
      0 < p.2 ∧ ∃ ys zs, xs = ys ++ p.1 :: zs ∧ p.2 = min (cap p.1) (r - capacity cap ys) := by
  constructor
  · intro hp
    refine ⟨(mem_fill hp).2.1, ?_⟩
    -- the sources before the one used have been emptied
    induction xs generalizing r with
    | nil => simp [fill] at hp
    | cons x xs ih =>
      by_cases hr : r = 0
      · simp [hr] at hp
      · by_cases hx : cap x = 0
        · rw [fill_cons_empty hx] at hp
          obtain ⟨ys, zs, rfl, hshare⟩ := ih hp
          exact ⟨x :: ys, zs, rfl, by rw [hshare, capacity_cons, hx, Nat.zero_add]⟩
        · rw [fill_cons hx xs hr] at hp
          rcases List.mem_cons.mp hp with rfl | hp
          · exact ⟨[], xs, rfl, rfl⟩
          · obtain ⟨ys, zs, rfl, hshare⟩ := ih hp
            refine ⟨x :: ys, zs, rfl, ?_⟩
            rw [hshare, capacity_cons]
            omega
  · rintro ⟨hpos, ys, zs, rfl, hshare⟩
    obtain ⟨x, n⟩ := p
    have hshare : n = min (cap x) (r - capacity cap ys) := hshare
    have hpos : 0 < n := hpos
    rw [fill_append, List.mem_append, fill_cons (by omega) zs (by omega), ← hshare]
    exact Or.inr (List.mem_cons_self ..)

/-- In a list of different bins sorted by `le`, the bins before one are those that sort
    strictly before it. -/
theorem filter_before {le : α → α → Prop} [DecidableRel le] {ys zs : List α} {x : α}
    (hsorted : (ys ++ x :: zs).Pairwise le) (hnd : (ys ++ x :: zs).Nodup)
    (hanti : ∀ a ∈ ys ++ x :: zs, ∀ b ∈ ys ++ x :: zs, le a b → le b a → a = b) :
    (ys ++ x :: zs).filter (fun y => le y x ∧ ¬ le x y) = ys := by
  obtain ⟨-, hxzs, hys⟩ := List.pairwise_append.mp hsorted
  have hx : x ∈ ys ++ x :: zs := by simp
  -- what comes strictly before `x` in the order comes before it in the list
  have hbefore : ys.filter (fun y => le y x ∧ ¬ le x y) = ys := by
    refine List.filter_eq_self.mpr (fun y hy => ?_)
    have hyx : le y x := hys y hy x (List.mem_cons_self ..)
    have hne : y ≠ x := (List.nodup_append.mp hnd).2.2 y hy x (List.mem_cons_self ..)
    exact decide_eq_true ⟨hyx, fun hxy =>
      hne (hanti y (List.mem_append_left _ hy) x hx hyx hxy)⟩
  have hafter : zs.filter (fun y => le y x ∧ ¬ le x y) = [] := by
    refine List.filter_eq_nil_iff.mpr (fun z hz => ?_)
    have hxz : le x z := (List.pairwise_cons.mp hxzs).1 z hz
    simp [hxz]
  rw [List.filter_append, List.filter_cons, hbefore, hafter]
  simp

/-- What a bin of a sorted list gives: its capacity, or what the bins that sort before it left
    over. -/
theorem mem_fill_sorted {le : α → α → Prop} [DecidableRel le] {cap : α → ℕ} {xs : List α} {r : ℕ}
    (hsorted : xs.Pairwise le) (hnd : xs.Nodup)
    (hanti : ∀ a ∈ xs, ∀ b ∈ xs, le a b → le b a → a = b) {p : α × ℕ} :
    p ∈ fill cap xs r ↔ 0 < p.2 ∧ p.1 ∈ xs
      ∧ p.2 = min (cap p.1) (r - capacity cap (xs.filter (fun y => le y p.1 ∧ ¬ le p.1 y))) := by
  rw [mem_fill_iff]
  refine and_congr_right (fun _ => ?_)
  constructor
  · rintro ⟨ys, zs, rfl, hshare⟩
    -- in a sorted list the sources before one are those that come before it in the order
    rw [filter_before hsorted hnd hanti]
    exact ⟨by simp, hshare⟩
  · rintro ⟨hmem, hshare⟩
    obtain ⟨ys, zs, rfl⟩ := List.append_of_mem hmem
    rw [filter_before hsorted hnd hanti] at hshare
    exact ⟨ys, zs, rfl, hshare⟩

/-- **Greedy.** A bin that gives something has used up the bins before it. -/
theorem fill_greedy {cap : α → ℕ} {ys zs : List α} {x y : α} {r n : ℕ}
    (hy : y ∈ ys) (hcap : 0 < cap y) (hn : 0 < n) (hshare : n = min (cap x) (r - capacity cap ys)) :
    (y, cap y) ∈ fill cap (ys ++ x :: zs) r := by
  obtain ⟨as, bs, rfl⟩ := List.append_of_mem hy
  refine mem_fill_iff.mpr ⟨hcap, as, bs ++ x :: zs, by simp, ?_⟩
  -- the request is larger than all that stands before `x`
  rw [capacity_append, capacity_cons] at hshare
  show cap y = min (cap y) (r - capacity cap as)
  omega

end Greedy
