import Mathlib.Data.List.Sort
import Mathlib.Order.Basic
import Mathlib.Tactic.Common

namespace Relational

/-!
# The first rows of an order

A query that orders its rows by a key, greatest first, and keeps at most `n` of them does not say
which of the rows with equal keys it keeps.  `IsTop key n xs ys` says that `ys` is such an answer on
the rows `xs`.

* `IsTop.keys_eq` — the keys of the answer are not open: they are the first `n` keys in order;
* `IsTop.merge` — **truncating early loses nothing**: an answer on the answers of the parts is an
  answer on the whole.
-/

variable {α κ : Type} [LinearOrder κ] {key : α → κ} {n : ℕ}

/-- Greatest key first. -/
def Descending (key : α → κ) (xs : List α) : Prop := xs.Pairwise (fun x y => key y ≤ key x)

/-- The first `n` of the rows in some descending order. -/
def IsTop (key : α → κ) (n : ℕ) (xs ys : List α) : Prop :=
  ∃ all, all.Perm xs ∧ Descending key all ∧ ys = all.take n

/-- The stable sort, greatest key first. -/
def sortDescending (key : α → κ) (xs : List α) : List α := xs.mergeSort (fun x y => key y ≤ key x)

/-- Sorting keeps the elements. -/
theorem perm_sortDescending (key : α → κ) (xs : List α) : (sortDescending key xs).Perm xs :=
  List.mergeSort_perm xs _

/-- What is sorted is in descending order. -/
theorem descending_sortDescending (key : α → κ) (xs : List α) :
    Descending key (sortDescending key xs) := by
  refine (List.pairwise_mergeSort ?_ ?_ xs).imp (fun h => of_decide_eq_true h)
  · intro a b c hab hbc
    exact decide_eq_true ((of_decide_eq_true hbc).trans (of_decide_eq_true hab))
  · intro a b
    simpa using le_total (key b) (key a)

/-- The first of the sorted elements are the top ones. -/
theorem isTop_sortDescending (key : α → κ) (n : ℕ) (xs : List α) :
    IsTop key n xs ((sortDescending key xs).take n) :=
  ⟨_, perm_sortDescending key xs, descending_sortDescending key xs, rfl⟩

namespace IsTop

variable {xs ys : List α}

/-- What an answer leaves out, none of it above what it keeps. -/
theorem split (h : IsTop key n xs ys) :
    Descending key ys ∧ ys.length ≤ n ∧ ∃ rest, (ys ++ rest).Perm xs
      ∧ (∀ y ∈ ys, ∀ r ∈ rest, key r ≤ key y) ∧ (rest ≠ [] → ys.length = n) := by
  obtain ⟨all, hperm, hsorted, rfl⟩ := h
  -- the list is cut after the first `n` of the sorted elements
  have hsplit : (all.take n ++ all.drop n).Pairwise (fun x y => key y ≤ key x) := by
    rw [List.take_append_drop]
    exact hsorted
  obtain ⟨htake, -, hbetween⟩ := List.pairwise_append.mp hsplit
  refine ⟨htake, List.length_take_le .., all.drop n, ?_, hbetween, fun hrest => ?_⟩
  · rw [List.take_append_drop]
    exact hperm
  · rw [List.length_take]
    have hlt : n < all.length := Nat.lt_of_not_le (fun hle => hrest (List.drop_eq_nil_of_le hle))
    omega

/-- A list in order that nothing left out exceeds, and that is full or complete, is the top. -/
theorem of_split {rest : List α} (hsorted : Descending key ys) (hlength : ys.length ≤ n)
    (hperm : (ys ++ rest).Perm xs) (hbetween : ∀ y ∈ ys, ∀ r ∈ rest, key r ≤ key y)
    (hfull : rest ≠ [] → ys.length = n) : IsTop key n xs ys := by
  refine ⟨ys ++ sortDescending key rest, ?_, ?_, ?_⟩
  · exact ((perm_sortDescending key rest).append_left ys).trans hperm
  · refine List.pairwise_append.mpr ⟨hsorted, descending_sortDescending key rest, ?_⟩
    exact fun y hy r hr => hbetween y hy r ((perm_sortDescending key rest).mem_iff.mp hr)
  -- either nothing is left out, or the list is full
  · by_cases hrest : rest = []
    · subst hrest
      have hnil : sortDescending key ([] : List α) = [] :=
        List.perm_nil.mp (perm_sortDescending key [])
      rw [hnil, List.append_nil, List.take_of_length_le hlength]
    · rw [← hfull hrest, List.take_left]

/-- The top elements are among all. -/
theorem subset (h : IsTop key n xs ys) {y : α} (hy : y ∈ ys) : y ∈ xs := by
  obtain ⟨all, hperm, -, rfl⟩ := h
  exact hperm.mem_iff.mp (List.mem_of_mem_take hy)

/-- The top elements are different when all are. -/
theorem nodup (h : IsTop key n xs ys) (hxs : xs.Nodup) : ys.Nodup := by
  obtain ⟨all, hperm, -, rfl⟩ := h
  exact (hperm.nodup_iff.mpr hxs).sublist (List.take_sublist ..)

/-- Rows may be renamed, as long as their keys stay. -/
theorem map {β : Type} {key' : β → κ} {f : α → β} (hf : ∀ x, key' (f x) = key x)
    (h : IsTop key n xs ys) : IsTop key' n (xs.map f) (ys.map f) := by
  obtain ⟨all, hperm, hsorted, rfl⟩ := h
  refine ⟨all.map f, hperm.map f, ?_, List.map_take⟩
  refine List.pairwise_map.mpr (hsorted.imp (fun {x y} hxy => ?_))
  rwa [hf, hf]

/-- The keys of an answer are the first keys in order. -/
theorem keys_eq (h : IsTop key n xs ys) :
    ys.map key = (sortDescending id (xs.map key)).take n := by
  obtain ⟨all, hperm, hsorted, rfl⟩ := h
  rw [List.map_take]
  refine congrArg (List.take n) ?_
  have hkeys : (all.map key).Perm (sortDescending id (xs.map key)) :=
    (hperm.map key).trans (perm_sortDescending id _).symm
  -- two sorted lists of the same keys are equal
  have hantisymm : ∀ a b : κ, a ∈ all.map key → b ∈ sortDescending id (xs.map key) →
      b ≤ a → a ≤ b → a = b := fun a b _ _ hba hab => le_antisymm hab hba
  exact List.Perm.eq_of_pairwise hantisymm (List.pairwise_map.mpr hsorted)
    (descending_sortDescending id _) hkeys

/-- What is above `z` is among the answers, and they are at most `n` with `z` itself. -/
theorem countP_lt {rest : List α} (hlength : ys.length ≤ n) (hperm : (ys ++ rest).Perm xs)
    (hbetween : ∀ y ∈ ys, ∀ r ∈ rest, key r ≤ key y) {z : α} (hz : z ∈ ys) :
    xs.countP (fun x => key z < key x) < n := by
  have hrest : rest.countP (fun x => key z < key x) = 0 := by
    rw [List.countP_eq_zero]
    intro r hr
    simpa using hbetween z hz r hr
  -- `z` itself is not counted
  have hself : ys.countP (fun x => key z < key x) < ys.length := by
    refine lt_of_le_of_ne List.countP_le_length (fun hall => ?_)
    have hzz := List.countP_eq_length.mp hall z hz
    simp at hzz
  rw [← hperm.countP_eq, List.countP_append, hrest]
  omega

/-- **Truncating early loses nothing.** -/
theorem merge {xss yss : List (List α)} (hparts : List.Forall₂ (IsTop key n) xss yss)
    (h : IsTop key n yss.flatten ys) : IsTop key n xss.flatten ys := by
  obtain ⟨hsorted, hlength, rest, hperm, hbetween, hfull⟩ := h.split
  -- what the parts leave out
  have hleft : ∃ out, (yss.flatten ++ out).Perm xss.flatten ∧
      (out ≠ [] → n ≤ yss.flatten.length) ∧ ∀ r ∈ out, ∀ k, key r > k →
        n ≤ yss.flatten.countP (fun x => k < key x) := by
    clear h hperm
    induction hparts with
    | nil => exact ⟨[], by simp, by simp, by simp⟩
    | @cons xs' ys' xss yss hpart _ ih =>
      obtain ⟨out, hout, hout_full, hout_count⟩ := ih
      obtain ⟨-, -, rest', hperm', hbetween', hfull'⟩ := hpart.split
      refine ⟨rest' ++ out, ?_, ?_, ?_⟩
      · rw [List.flatten_cons, List.flatten_cons]
        have hswap : (ys' ++ yss.flatten ++ (rest' ++ out)).Perm
            ((ys' ++ rest') ++ (yss.flatten ++ out)) := by
          rw [List.append_assoc, List.append_assoc]
          refine List.Perm.append_left ys' ?_
          rw [← List.append_assoc, ← List.append_assoc]
          exact List.perm_append_comm.append_right out
        exact hswap.trans (hperm'.append hout)
      · intro hne
        rw [List.flatten_cons, List.length_append]
        by_cases hrest' : rest' = []
        · rw [hrest', List.nil_append] at hne
          exact (hout_full hne).trans (Nat.le_add_left ..)
        · rw [hfull' hrest']
          exact Nat.le_add_right ..
      · intro r hr k hk
        rw [List.flatten_cons, List.countP_append]
        rcases List.mem_append.mp hr with hr | hr
        · -- the part is full, and all it keeps is above `k`
          have hall : ys'.countP (fun x => k < key x) = ys'.length := by
            rw [List.countP_eq_length]
            intro y hy
            exact decide_eq_true (lt_of_lt_of_le hk (hbetween' y hy r hr))
          rw [hall, hfull' (List.ne_nil_of_mem hr)]
          exact Nat.le_add_right ..
        · exact (hout_count r hr k hk).trans (Nat.le_add_left ..)
  obtain ⟨out, hout, hout_full, hout_count⟩ := hleft
  have hwhole : (ys ++ (rest ++ out)).Perm xss.flatten := by
    rw [← List.append_assoc]
    exact (hperm.append_right out).trans hout
  refine of_split hsorted hlength hwhole ?_ ?_
  · intro y hy r hr
    rcases List.mem_append.mp hr with hr | hr
    · exact hbetween y hy r hr
    · by_contra hlt
      have hcount := hout_count r hr (key y) (not_le.mp hlt)
      have := countP_lt hlength hperm hbetween hy
      omega
  · intro hne
    by_cases hrest : rest = []
    · rw [hrest, List.nil_append] at hne
      rw [hrest, List.append_nil] at hperm
      have := hout_full hne
      rw [hperm.length_eq] at hlength ⊢
      omega
    · exact hfull hrest

end IsTop

end Relational
