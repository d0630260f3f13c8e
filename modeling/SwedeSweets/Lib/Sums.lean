import Mathlib.Algebra.Order.BigOperators.Group.List
import Mathlib.Algebra.GroupWithZero.Nat
import Mathlib.Algebra.Order.Group.Nat
import Mathlib.Algebra.Order.Monoid.Canonical.Defs
import Mathlib.Data.List.Nodup
import Mathlib.Tactic.Common

namespace Sums

/-!
# Sums over lists with keys

Sums of natural weights over a list in which no key occurs twice: a sum that vanishes off
one element is the weight of that element (`sum_of_unique`), picking out one key gives the
weight under it (`sum_key`), and two sums may be taken in either order (`sum_comm`).
-/

variable {α β κ : Type}

/-- A sum that vanishes off one element is the weight of that element. -/
theorem sum_of_unique {xs : List α} (hnd : xs.Nodup) {x : α} (hx : x ∈ xs) {w : α → ℕ}
    (h : ∀ y ∈ xs, y ≠ x → w y = 0) : (xs.map w).sum = w x := by
  induction xs with
  | nil => cases hx
  | cons y ys ih =>
    rw [List.nodup_cons] at hnd
    rw [List.map_cons, List.sum_cons]
    -- the first element is `x`, or it weighs nothing
    rcases List.mem_cons.mp hx with rfl | hx
    · have hrest : (ys.map w).sum = 0 := by
        rw [List.sum_eq_zero_iff]
        intro v hv
        obtain ⟨z, hz, rfl⟩ := List.mem_map.mp hv
        exact h z (List.mem_cons_of_mem _ hz) (fun he => hnd.1 (he ▸ hz))
      rw [hrest, Nat.add_zero]
    · have hy : w y = 0 := h y (List.mem_cons_self ..) (fun he => hnd.1 (he ▸ hx))
      rw [hy, Nat.zero_add]
      exact ih hnd.2 hx (fun z hz => h z (List.mem_cons_of_mem _ hz))

/-- Picking out the key of an element gives its weight. -/
theorem sum_key [DecidableEq κ] {xs : List α} {key : α → κ} (hnd : (xs.map key).Nodup) {x : α}
    (hx : x ∈ xs) (w : α → ℕ) :
    (xs.map (fun y => if key y = key x then w y else 0)).sum = w x := by
  refine (sum_of_unique (List.Nodup.of_map key hnd) hx (fun y hy hne => if_neg (fun hk => hne ?_))).trans
    (if_pos rfl)
  exact List.inj_on_of_nodup_map hnd hy hx hk

/-- Picking out a key gives the constant once, or nothing when the key does not occur. -/
theorem sum_const_key [DecidableEq κ] {xs : List α} {key : α → κ} (hnd : (xs.map key).Nodup)
    (k : κ) (v : ℕ) :
    (xs.map (fun y => if key y = k then v else 0)).sum = if k ∈ xs.map key then v else 0 := by
  -- at most one element has the key
  by_cases hk : k ∈ xs.map key
  · obtain ⟨x, hx, rfl⟩ := List.mem_map.mp hk
    rw [if_pos hk]
    exact sum_key hnd hx (fun _ => v)
  · rw [if_neg hk, List.sum_eq_zero_iff]
    intro u hu
    obtain ⟨y, hy, rfl⟩ := List.mem_map.mp hu
    exact if_neg (fun he => hk (List.mem_map.mpr ⟨y, hy, he⟩))

/-- Two sums may be taken in either order. -/
theorem sum_comm (xs : List α) (ys : List β) (f : α → β → ℕ) :
    (xs.map (fun x => (ys.map (f x)).sum)).sum = (ys.map (fun y => (xs.map (f · y)).sum)).sum := by
  induction xs with
  | nil => simp
  | cons x xs ih =>
    simp only [List.map_cons, List.sum_cons, ih]
    rw [← List.sum_map_add]

end Sums
