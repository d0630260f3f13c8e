import SwedeSweets.Lib.Sums

namespace Relational

/-!
# Keyed tables

A `Table α` is a finite relation whose rows carry a primary key drawn from a sequence:
the rows stand in key order, no key occurs twice, and the next key of the sequence is
above every key in use.  The three facts are fields of the structure, so every operation
below returns a table that has them again.

* `NewRow`, `Edit` — a row still waiting for its key, and a rewrite of a row that keeps
  its key; `insert` / `insertAll`, `put`, `modify` and `delete` are the write operations.
* `Evolves R` — every row is still there, as an `R`-successor of itself.
* `total w` — the aggregate `Σ w r` over all rows.  A filtered sum is a `total` whose
  weight is `0` off the filter, so one monotonicity rule serves every filtered sum.
-/

/-- Rows with a primary key. -/
class Row (α : Type) where
  /-- The primary key. -/
  pk : α → ℕ

open Row

/-- A row that still waits for the key the sequence will give it. -/
structure NewRow (α : Type) [Row α] where
  make : ℕ → α
  pk_make : ∀ n, pk (make n) = n

/-- A rewrite of a row that keeps its key. -/
structure Edit (α : Type) [Row α] where
  apply : α → α
  pk_apply : ∀ r, pk (apply r) = pk r

/-- A keyed table: rows in key order and the next key of the sequence. -/
structure Table (α : Type) [Row α] where
  rows : List α
  next : ℕ
  sorted : (rows.map pk).Pairwise (· < ·)
  bounded : ∀ r ∈ rows, pk r < next

namespace Table

variable {α : Type} [Row α]

instance : Membership α (Table α) := ⟨fun t r => r ∈ t.rows⟩

/-- A row is in the table when it is among its rows. -/
theorem mem_def {t : Table α} {r : α} : r ∈ t ↔ r ∈ t.rows := Iff.rfl

/-- What is said about all rows, or about some row, can be checked row by row. -/
instance decidableForall (t : Table α) (p : α → Prop) [DecidablePred p] :
    Decidable (∀ r ∈ t, p r) :=
  inferInstanceAs (Decidable (∀ r ∈ t.rows, p r))

instance decidableExists (t : Table α) (p : α → Prop) [DecidablePred p] :
    Decidable (∃ r ∈ t, p r) :=
  inferInstanceAs (Decidable (∃ r ∈ t.rows, p r))

/-- The rows and the next key are all there is to a table. -/
theorem eq_iff {t t' : Table α} : t = t' ↔ t.rows = t'.rows ∧ t.next = t'.next := by
  obtain ⟨rows, next, _, _⟩ := t
  obtain ⟨rows', next', _, _⟩ := t'
  simp

instance decidableEq [DecidableEq α] : DecidableEq (Table α) :=
  fun _ _ => decidable_of_iff' _ eq_iff

/-! ### Reading -/

/-- The row with key `k`. -/
def get? (t : Table α) (k : ℕ) : Option α := t.rows.find? (fun r => pk r == k)

/-- The rows that satisfy `p`, in key order. -/
def select (t : Table α) (p : α → Bool) : List α := t.rows.filter p

/-- The aggregate `Σ w r` over all rows. -/
def total (t : Table α) (w : α → ℕ) : ℕ := (t.rows.map w).sum

/-- Rows of one table with equal keys are equal. -/
theorem eq_of_pk_eq {t : Table α} {r r' : α} (hr : r ∈ t) (hr' : r' ∈ t)
    (h : pk r = pk r') : r = r' := by
  have hnd : (t.rows.map pk).Nodup := t.sorted.imp (fun hlt => Nat.ne_of_lt hlt)
  exact List.inj_on_of_nodup_map hnd hr hr' h

/-- Looking up a key finds the row with this key. -/
theorem get?_eq_some {t : Table α} {k : ℕ} {r : α} :
    t.get? k = some r ↔ r ∈ t ∧ pk r = k := by
  constructor
  · intro h
    exact ⟨List.mem_of_find?_eq_some h, by simpa using List.find?_some h⟩
  · rintro ⟨hmem, hk⟩
    cases hf : t.get? k with
    | none =>
      have hne := List.find?_eq_none.mp hf r hmem
      simp [hk] at hne
    -- the row found has the key, and no other row has it
    | some r' =>
      have hmem' : r' ∈ t := List.mem_of_find?_eq_some hf
      have hk' : pk r' = k := by simpa using List.find?_some hf
      rw [eq_of_pk_eq hmem' hmem (hk'.trans hk.symm)]

/-- Nothing is found when no row has the key. -/
theorem get?_eq_none {t : Table α} {k : ℕ} : t.get? k = none ↔ ∀ r ∈ t, pk r ≠ k := by
  simp [get?, mem_def]

/-- A row is found under its own key. -/
theorem get?_self {t : Table α} {r : α} (h : r ∈ t) : t.get? (pk r) = some r :=
  get?_eq_some.mpr ⟨h, rfl⟩

/-- What a query selects. -/
@[simp] theorem mem_select {t : Table α} {p : α → Bool} {r : α} :
    r ∈ t.select p ↔ r ∈ t ∧ p r = true := List.mem_filter

/-- A selection lists its rows in strictly increasing key order. -/
theorem select_sorted (t : Table α) (p : α → Bool) :
    ((t.select p).map pk).Pairwise (· < ·) :=
  t.sorted.sublist (List.filter_sublist.map pk)

/-- What a query selects has different keys. -/
theorem select_nodup_pk (t : Table α) (p : α → Bool) : ((t.select p).map pk).Nodup :=
  (t.select_sorted p).imp (fun hlt => Nat.ne_of_lt hlt)

/-- A filter that one row passes. -/
theorem select_eq_singleton {t : Table α} {p : α → Bool} {r : α} (hr : r ∈ t)
    (hp : ∀ x ∈ t, p x = true ↔ x = r) : t.select p = [r] := by
  have hnd : (t.select p).Nodup := List.Nodup.of_map _ (select_nodup_pk t p)
  refine List.perm_singleton.mp ((List.perm_ext_iff_of_nodup hnd (List.nodup_singleton r)).mpr ?_)
  -- two lists without duplicates are compared by their members
  intro x
  rw [mem_select, List.mem_singleton]
  constructor
  · rintro ⟨hx, hpx⟩
    exact (hp x hx).mp hpx
  · rintro rfl
    exact ⟨hr, (hp x hr).mpr rfl⟩

/-! ### Writing -/

/-- The table without rows; the first key a sequence gives is `1`. -/
def empty : Table α where
  rows := []
  next := 1
  sorted := List.Pairwise.nil
  bounded := by simp

/-- Insert one row under the next key. -/
def insert (t : Table α) (d : NewRow α) : Table α where
  rows := t.rows ++ [d.make t.next]
  next := t.next + 1
  sorted := by
    rw [List.map_append, List.pairwise_append]
    refine ⟨t.sorted, by simp, ?_⟩
    intro k hk k' hk'
    obtain ⟨r, hr, rfl⟩ := List.mem_map.mp hk
    simp only [List.map_cons, List.map_nil, List.mem_singleton, d.pk_make] at hk'
    rw [hk']
    exact t.bounded r hr
  bounded := by
    intro r hr
    rcases List.mem_append.mp hr with h | h
    · exact Nat.lt_succ_of_lt (t.bounded r h)
    · rw [List.mem_singleton.mp h, d.pk_make]
      exact Nat.lt_succ_self _

/-- Insert several rows, each under the next key. -/
def insertAll (t : Table α) (ds : List (NewRow α)) : Table α := ds.foldl insert t

/-- Overwrite the row that has the key of `r`. -/
def put (t : Table α) (r : α) : Table α where
  rows := t.rows.map (fun x => if pk x = pk r then r else x)
  next := t.next
  sorted := by
    have hpk : (t.rows.map (fun x => if pk x = pk r then r else x)).map pk = t.rows.map pk := by
      rw [List.map_map]
      refine List.map_congr_left (fun x _ => ?_)
      by_cases h : pk x = pk r <;> simp [h]
    rw [hpk]
    exact t.sorted
  bounded := by
    intro x hx
    obtain ⟨y, hy, rfl⟩ := List.mem_map.mp hx
    by_cases h : pk y = pk r
    · rw [if_pos h, ← h]; exact t.bounded y hy
    · rw [if_neg h]; exact t.bounded y hy

/-- Rewrite every row that satisfies `p`. -/
def modify (t : Table α) (p : α → Bool) (u : Edit α) : Table α where
  rows := t.rows.map (fun r => if p r then u.apply r else r)
  next := t.next
  sorted := by
    have hpk : (t.rows.map (fun r => if p r then u.apply r else r)).map pk = t.rows.map pk := by
      rw [List.map_map]
      refine List.map_congr_left (fun r _ => ?_)
      by_cases h : p r <;> simp [h, u.pk_apply]
    rw [hpk]
    exact t.sorted
  bounded := by
    intro x hx
    obtain ⟨y, hy, rfl⟩ := List.mem_map.mp hx
    by_cases h : p y
    · rw [if_pos h, u.pk_apply]; exact t.bounded y hy
    · rw [if_neg h]; exact t.bounded y hy

/-- Delete every row that satisfies `p`. -/
def delete (t : Table α) (p : α → Bool) : Table α where
  rows := t.rows.filter (fun r => !p r)
  next := t.next
  sorted := t.sorted.sublist (List.filter_sublist.map pk)
  bounded := fun r hr => t.bounded r (List.mem_of_mem_filter hr)

/-! ### Membership after a write -/

/-- The empty table has no rows. -/
@[simp] theorem not_mem_empty (r : α) : r ∉ (empty : Table α) := List.not_mem_nil

/-- What is in the table after an insert. -/
@[simp] theorem mem_insert {t : Table α} {d : NewRow α} {r : α} :
    r ∈ t.insert d ↔ r ∈ t ∨ r = d.make t.next := by
  simp [mem_def, insert]

/-- What is in the table after an update of the rows of a query. -/
@[simp] theorem mem_modify {t : Table α} {p : α → Bool} {u : Edit α} {r : α} :
    r ∈ t.modify p u ↔ ∃ x ∈ t, (if p x then u.apply x else x) = r := List.mem_map

/-- What is left after the rows of a query are deleted. -/
@[simp] theorem mem_delete {t : Table α} {p : α → Bool} {r : α} :
    r ∈ t.delete p ↔ r ∈ t ∧ p r = false := by
  simp [mem_def, delete]

/-- After a row is saved, a row is this one or an old one with another key. -/
theorem of_mem_put {t : Table α} {r x : α} (hx : x ∈ t.put r) :
    x = r ∨ (x ∈ t ∧ pk x ≠ pk r) := by
  obtain ⟨y, hy, rfl⟩ := List.mem_map.mp hx
  by_cases h : pk y = pk r
  · left; rw [if_pos h]
  · right; rw [if_neg h]; exact ⟨hy, h⟩

/-- Saving over an old row replaces it. -/
theorem mem_put {t : Table α} {r x : α} (hr : ∃ y ∈ t, pk y = pk r) :
    x ∈ t.put r ↔ x = r ∨ (x ∈ t ∧ pk x ≠ pk r) := by
  constructor
  · exact of_mem_put
  · rintro (rfl | ⟨hx, hne⟩)
    · obtain ⟨y, hy, hk⟩ := hr
      exact List.mem_map.mpr ⟨y, hy, if_pos hk⟩
    · exact List.mem_map.mpr ⟨x, hx, if_neg hne⟩

/-- Overwriting another row keeps a row. -/
theorem mem_put_of_ne {t : Table α} {r x : α} (hx : x ∈ t) (hne : pk x ≠ pk r) : x ∈ t.put r :=
  List.mem_map.mpr ⟨x, hx, if_neg hne⟩

/-- A row saved among others is one of them, or was there. -/
theorem of_mem_foldl_put {t : Table α} {xs : List α} {x : α} (hx : x ∈ xs.foldl put t) :
    x ∈ xs ∨ x ∈ t := by
  induction xs generalizing t with
  | nil => exact Or.inr hx
  | cons r rs ih =>
    rcases ih hx with hx | hx
    · exact Or.inl (List.mem_cons_of_mem _ hx)
    · rcases of_mem_put hx with rfl | ⟨hx, -⟩
      · exact Or.inl (List.mem_cons_self ..)
      · exact Or.inr hx

/-- Saving rows hands out no new key. -/
theorem next_foldl_put (t : Table α) (xs : List α) : (xs.foldl put t).next = t.next := by
  induction xs generalizing t with
  | nil => rfl
  | cons x xs ih => exact ih (t.put x)

/-- Overwriting the rows of different keys one after the other puts exactly these rows in. -/
theorem mem_foldl_put {t : Table α} {xs : List α} {r : α} (hxs : ∀ x ∈ xs, ∃ y ∈ t, pk y = pk x)
    (hnd : (xs.map pk).Nodup) :
    r ∈ xs.foldl put t ↔ r ∈ xs ∨ (r ∈ t ∧ ∀ x ∈ xs, pk r ≠ pk x) := by
  induction xs generalizing t with
  | nil => simp
  | cons x xs ih =>
    rw [List.map_cons, List.nodup_cons] at hnd
    have hx : ∃ y ∈ t, pk y = pk x := hxs x (List.mem_cons_self ..)
    -- the later rows still have something to overwrite
    have hrest : ∀ z ∈ xs, ∃ y ∈ t.put x, pk y = pk z := by
      intro z hz
      obtain ⟨y, hy, hyz⟩ := hxs z (List.mem_cons_of_mem _ hz)
      have hzx : pk z ≠ pk x := fun he => hnd.1 (List.mem_map.mpr ⟨z, hz, he⟩)
      exact ⟨y, (mem_put hx).mpr (Or.inr ⟨hy, hyz ▸ hzx⟩), hyz⟩
    rw [List.foldl_cons, ih hrest hnd.2, mem_put hx, List.mem_cons]
    simp only [List.forall_mem_cons]
    constructor
    · rintro (hr | ⟨rfl | ⟨hr, hrx⟩, hne⟩)
      · exact Or.inl (Or.inr hr)
      · exact Or.inl (Or.inl rfl)
      · exact Or.inr ⟨hr, hrx, hne⟩
    · rintro ((rfl | hr) | ⟨hr, hrx, hne⟩)
      · -- the row just put in is not overwritten again
        exact Or.inr ⟨Or.inl rfl, fun z hz he => hnd.1 (List.mem_map.mpr ⟨z, hz, he.symm⟩)⟩
      · exact Or.inl hr
      · exact Or.inr ⟨Or.inr ⟨hr, hrx⟩, hne⟩

/-- What all versions of a row have in common stays. -/
theorem map_rows_put {β : Type} {key : α → β} {t : Table α} {r : α}
    (h : ∀ y ∈ t, pk y = pk r → key y = key r) : (t.put r).rows.map key = t.rows.map key := by
  show (t.rows.map (fun y => if pk y = pk r then r else y)).map key = _
  rw [List.map_map]
  refine List.map_congr_left (fun y hy => ?_)
  by_cases hpk : pk y = pk r
  · simp [hpk, h y hy hpk]
  · simp [hpk]

/-- Saving rows that agree with the old ones on a value keeps the list of these values. -/
theorem map_rows_foldl_put {β : Type} {key : α → β} {t : Table α} {xs : List α}
    (h : ∀ x ∈ xs, ∀ y ∈ t, pk y = pk x → key y = key x) :
    (xs.foldl put t).rows.map key = t.rows.map key := by
  induction xs generalizing t with
  | nil => rfl
  | cons x xs ih =>
    have hx := h x (List.mem_cons_self ..)
    refine (ih (fun z hz y hy hyz => ?_)).trans (map_rows_put hx)
    obtain ⟨y₀, hy₀, rfl⟩ := List.mem_map.mp hy
    have hz := h z (List.mem_cons_of_mem _ hz) y₀ hy₀
    -- the row was overwritten by `x`, or is still the old one
    by_cases hpk : pk y₀ = pk x
    · rw [if_pos hpk] at hyz ⊢
      exact (hx y₀ hy₀ hpk).symm.trans (hz (hpk.trans hyz))
    · rw [if_neg hpk] at hyz ⊢
      exact hz hyz

/-- Of two overwrites of one row the later one stays. -/
theorem put_put (t : Table α) {r r' : α} (h : pk r' = pk r) : (t.put r).put r' = t.put r' := by
  refine eq_iff.mpr ⟨?_, rfl⟩
  show (t.rows.map _).map _ = t.rows.map _
  rw [List.map_map]
  refine List.map_congr_left (fun x _ => ?_)
  by_cases hx : pk x = pk r'
  · simp [hx, h]
  · have hx' : pk x ≠ pk r := fun he => hx (he.trans h.symm)
    simp [hx, hx']

/-- Overwriting a row with itself. -/
theorem put_self {t : Table α} {r : α} (hr : r ∈ t) : t.put r = t := by
  refine eq_iff.mpr ⟨?_, rfl⟩
  show t.rows.map _ = t.rows
  conv_rhs => rw [← List.map_id t.rows]
  refine List.map_congr_left (fun x hx => ?_)
  by_cases h : pk x = pk r
  · rw [if_pos h]
    exact (eq_of_pk_eq (t := t) hx hr h).symm
  · rw [if_neg h]
    rfl

/-- Overwriting the row just inserted. -/
theorem put_insert (t : Table α) {d d' : NewRow α} {r : α} (h : d'.make t.next = r) :
    (t.insert d).put r = t.insert d' := by
  have hpk : pk r = t.next := h ▸ d'.pk_make t.next
  refine eq_iff.mpr ⟨?_, rfl⟩
  show (t.rows ++ [d.make t.next]).map _ = t.rows ++ [d'.make t.next]
  rw [List.map_append, List.map_singleton, if_pos ((d.pk_make _).trans hpk.symm), h]
  congr 1
  conv_rhs => rw [← List.map_id t.rows]
  refine List.map_congr_left (fun x hx => if_neg (fun he => ?_))
  exact absurd (he.trans hpk) (Nat.ne_of_lt (t.bounded x hx))

/-- The only row that passes a test is the one that is found. -/
theorem find?_eq_some_of_unique {t : Table α} {p : α → Bool} {r : α} (hr : r ∈ t)
    (hp : p r = true) (hu : ∀ x ∈ t, p x = true → x = r) : t.rows.find? p = some r := by
  cases hf : t.rows.find? p with
  | none =>
    rw [List.find?_eq_none] at hf
    exact absurd hp (hf r hr)
  | some x => rw [hu x (List.mem_of_find?_eq_some hf) (List.find?_some hf)]

/-- Saving a row leaves the other keys alone. -/
theorem get?_put_of_ne {t : Table α} {r : α} {k : ℕ} (h : k ≠ pk r) : (t.put r).get? k = t.get? k := by
  cases hg : t.get? k with
  | none =>
    rw [get?_eq_none] at hg ⊢
    intro x hx
    rcases of_mem_put hx with rfl | ⟨hx, -⟩
    · exact fun he => h he.symm
    · exact hg x hx
  | some x =>
    obtain ⟨hx, rfl⟩ := get?_eq_some.mp hg
    exact get?_eq_some.mpr ⟨mem_put_of_ne hx h, rfl⟩

/-- Saving over an old row is seen under its key only. -/
theorem get?_put {t : Table α} {r : α} (hr : ∃ y ∈ t, pk y = pk r) (k : ℕ) :
    (t.put r).get? k = if k = pk r then some r else t.get? k := by
  by_cases hk : k = pk r
  · rw [if_pos hk, get?_eq_some]
    exact ⟨(mem_put hr).mpr (Or.inl rfl), hk.symm⟩
  · rw [if_neg hk, get?_put_of_ne hk]

/-- A row is found under its key after an update, with the update if it was selected. -/
theorem get?_modify (t : Table α) (p : α → Bool) (u : Edit α) (k : ℕ) :
    (t.modify p u).get? k = (t.get? k).map (fun r => if p r then u.apply r else r) := by
  have hpk : ∀ r : α, pk (if p r then u.apply r else r) = pk r := fun r => by
    by_cases h : p r = true
    · rw [if_pos h, u.pk_apply]
    · rw [if_neg h]
  show (t.rows.map _).find? _ = _
  rw [List.find?_map]
  refine congrArg (Option.map _) (congrArg (List.find? · t.rows) (funext (fun r => ?_)))
  simp [hpk r]

/-! ### Equal tables -/

/-- Tables with the same rows and the same next key are equal. -/
theorem ext {t t' : Table α} (hrows : t.rows = t'.rows) (hnext : t.next = t'.next) : t = t' := by
  cases t; cases t'
  simp only [mk.injEq]
  exact ⟨hrows, hnext⟩

/-- Only the rows of the table matter for what a rewrite does. -/
theorem modify_congr {t : Table α} {p q : α → Bool} {u v : Edit α}
    (hpq : ∀ r ∈ t, p r = q r) (huv : ∀ r ∈ t, q r = true → u.apply r = v.apply r) :
    t.modify p u = t.modify q v := by
  refine ext (List.map_congr_left (fun r hr => ?_)) rfl
  rw [hpq r hr]
  by_cases hq : q r = true
  · rw [if_pos hq, if_pos hq, huv r hr hq]
  · rw [if_neg hq, if_neg hq]

/-- A rewrite of no row changes nothing. -/
theorem modify_eq_self {t : Table α} {p : α → Bool} {u : Edit α} (h : ∀ r ∈ t, p r = false) :
    t.modify p u = t := by
  refine ext ?_ rfl
  show t.rows.map (fun r => if p r then u.apply r else r) = t.rows
  conv_rhs => rw [← List.map_id t.rows]
  refine List.map_congr_left (fun r hr => ?_)
  rw [h r hr]
  rfl

/-- The rows after edits of some of them are saved one by one. -/
private theorem rows_foldl_put (u : Edit α) (xs : List α) (hnd : (xs.map pk).Nodup) (t : Table α) :
    (xs.foldl (fun t r => t.put (u.apply r)) t).rows
        = t.rows.map (fun r => ((xs.find? (fun x => pk x == pk r)).map u.apply).getD r)
      ∧ (xs.foldl (fun t r => t.put (u.apply r)) t).next = t.next := by
  induction xs generalizing t with
  | nil => simp
  | cons x xs ih =>
    rw [List.map_cons, List.nodup_cons] at hnd
    obtain ⟨hrows, hnext⟩ := ih hnd.2 (t.put (u.apply x))
    refine ⟨?_, by rw [List.foldl_cons, hnext]; rfl⟩
    rw [List.foldl_cons, hrows]
    show (t.rows.map _).map _ = _
    rw [List.map_map]
    refine List.map_congr_left (fun r _ => ?_)
    simp only [Function.comp_apply, u.pk_apply]
    by_cases hr : pk r = pk x
    · -- the row is overwritten now and by no later write
      have hnone : xs.find? (fun y => pk y == pk x) = none := by
        rw [List.find?_eq_none]
        intro y hy hyx
        exact hnd.1 (List.mem_map.mpr ⟨y, hy, by simpa using hyx⟩)
      simp [hr, u.pk_apply, hnone]
    · have hr' : ¬ pk x = pk r := fun h => hr h.symm
      simp [hr, hr']

/-- Saving the rewritten rows of a selection one after the other, in any order, is the bulk
    rewrite. -/
theorem foldl_put_eq_modify (t : Table α) (p : α → Bool) (u : Edit α) {xs : List α}
    (hxs : xs.Perm (t.select p)) :
    xs.foldl (fun t r => t.put (u.apply r)) t = t.modify p u := by
  have hnd : (xs.map pk).Nodup := (hxs.map pk).nodup_iff.mpr (t.select_nodup_pk p)
  obtain ⟨hrows, hnext⟩ := rows_foldl_put u xs hnd t
  refine ext ?_ hnext
  rw [hrows]
  refine List.map_congr_left (fun r hr => ?_)
  by_cases hp : p r = true
  -- a row of the query is found among the rows saved
  · have hmem : r ∈ xs := hxs.mem_iff.mpr (mem_select.mpr ⟨hr, hp⟩)
    obtain ⟨y, hy⟩ : ∃ y, xs.find? (fun x => pk x == pk r) = some y :=
      Option.isSome_iff_exists.mp (List.find?_isSome.mpr ⟨r, hmem, by simp⟩)
    have hyt : y ∈ t := (mem_select.mp (hxs.mem_iff.mp (List.mem_of_find?_eq_some hy))).1
    have hyr : y = r := eq_of_pk_eq hyt hr (by simpa using List.find?_some hy)
    rw [hy, hyr, if_pos hp]
    rfl
  -- a row outside the query is not among the rows saved
  · have hnone : xs.find? (fun x => pk x == pk r) = none := by
      rw [List.find?_eq_none]
      intro y hy hyr
      obtain ⟨hyt, hpy⟩ := mem_select.mp (hxs.mem_iff.mp hy)
      rw [eq_of_pk_eq hyt hr (by simpa using hyr)] at hpy
      exact hp hpy
    rw [hnone, if_neg hp]
    rfl

/-- Overwriting the row of a key with its rewritten form is a rewrite of that row. -/
theorem put_eq_modify {t : Table α} {r : α} (u : Edit α) (hr : r ∈ t) :
    t.put (u.apply r) = t.modify (fun x => pk x == pk r) u := by
  refine ext (List.map_congr_left (fun x hx => ?_)) rfl
  rw [u.pk_apply]
  by_cases h : pk x = pk r
  · rw [if_pos h, if_pos (by simpa using h), eq_of_pk_eq hx hr h]
  · rw [if_neg h, if_neg (by simpa using h)]

/-- Rewriting the row just inserted is inserting it rewritten. -/
theorem modify_insert_next (t : Table α) (d : NewRow α) (u : Edit α) (p : α → Bool)
    (hp : ∀ r, p r = true ↔ pk r = t.next) :
    (t.insert d).modify p u
      = t.insert ⟨fun n => u.apply (d.make n), fun n => (u.pk_apply _).trans (d.pk_make n)⟩ := by
  refine ext ?_ rfl
  show (t.rows ++ [d.make t.next]).map (fun r => if p r then u.apply r else r)
    = t.rows ++ [u.apply (d.make t.next)]
  -- no old row has the key that is handed out
  have hold : t.rows.map (fun r => if p r then u.apply r else r) = t.rows := by
    conv_rhs => rw [← List.map_id t.rows]
    refine List.map_congr_left (fun r hr => if_neg (fun h => ?_))
    exact Nat.ne_of_lt (t.bounded r hr) ((hp r).mp h)
  rw [List.map_append, hold, List.map_cons, List.map_nil, if_pos ((hp _).mpr (d.pk_make _))]

/-! ### Several insertions -/

/-- The rows `insertAll` adds when the sequence stands at `n`. -/
def made (n : ℕ) : List (NewRow α) → List α
  | [] => []
  | d :: ds => d.make n :: made (n + 1) ds

/-- New rows come after the old ones. -/
theorem rows_insertAll (t : Table α) (ds : List (NewRow α)) :
    (t.insertAll ds).rows = t.rows ++ made t.next ds := by
  induction ds generalizing t with
  | nil => simp [insertAll, made]
  | cons d ds ih =>
    show ((t.insert d).insertAll ds).rows = _
    rw [ih (t.insert d)]
    simp [insert, made]

/-- What does not depend on the key can be read off the new rows before they have one. -/
theorem map_made_map {β γ : Type} {f : γ → NewRow α} {g : α → β} {h : γ → β}
    (hfg : ∀ x n, g ((f x).make n) = h x) (n : ℕ) (xs : List γ) :
    (made n (xs.map f)).map g = xs.map h := by
  induction xs generalizing n with
  | nil => rfl
  | cons x xs ih => simp only [made, List.map_cons, hfg, ih]

/-- A row that was made comes from one of the new rows. -/
theorem mem_made {n : ℕ} {ds : List (NewRow α)} {r : α} (hr : r ∈ made n ds) :
    ∃ d ∈ ds, ∃ m, r = d.make m := by
  induction ds generalizing n with
  | nil => simp [made] at hr
  | cons d ds ih =>
    rcases List.mem_cons.mp hr with rfl | h
    · exact ⟨d, by simp, n, rfl⟩
    · obtain ⟨d', hd', m, rfl⟩ := ih h
      exact ⟨d', List.mem_cons_of_mem _ hd', m, rfl⟩

/-- A new row comes from one of the records it was described by. -/
theorem mem_made_map {β : Type} {f : β → NewRow α} {xs : List β} {n : ℕ} {r : α}
    (hr : r ∈ made n (xs.map f)) : ∃ x ∈ xs, ∃ m, r = (f x).make m := by
  obtain ⟨d, hd, m, rfl⟩ := mem_made hr
  obtain ⟨x, hx, rfl⟩ := List.mem_map.mp hd
  exact ⟨x, hx, m, rfl⟩

/-- New rows stand for what they were made from, one by one. -/
theorem forall₂_made {β : Type} {R : β → NewRow α → Prop} {S : β → α → Prop}
    (hS : ∀ x d n, R x d → S x (d.make n)) {xs : List β} {ds : List (NewRow α)}
    (h : List.Forall₂ R xs ds) (n : ℕ) : List.Forall₂ S xs (made n ds) := by
  induction h generalizing n with
  | nil => exact .nil
  | cons hx _ ih => exact .cons (hS _ _ _ hx) (ih (n + 1))

/-- Each new row is made. -/
theorem exists_made {ds : List (NewRow α)} {d : NewRow α} (hd : d ∈ ds) (n : ℕ) :
    ∃ m, d.make m ∈ made n ds := by
  induction ds generalizing n with
  | nil => cases hd
  | cons x xs ih =>
    rcases List.mem_cons.mp hd with rfl | hd
    · exact ⟨n, List.mem_cons_self ..⟩
    · obtain ⟨m, hm⟩ := ih hd (n + 1)
      exact ⟨m, List.mem_cons_of_mem _ hm⟩

/-- New rows get new keys. -/
theorem le_pk_of_made {n : ℕ} {ds : List (NewRow α)} {r : α} (hr : r ∈ made n ds) : n ≤ pk r := by
  induction ds generalizing n with
  | nil => simp [made] at hr
  | cons d ds ih =>
    rcases List.mem_cons.mp hr with rfl | h
    · exact le_of_eq (d.pk_make n).symm
    · have := ih h
      omega

/-- What is in the table after many inserts. -/
theorem mem_insertAll {t : Table α} {ds : List (NewRow α)} {r : α} :
    r ∈ t.insertAll ds ↔ r ∈ t ∨ r ∈ made t.next ds := by
  rw [mem_def, rows_insertAll, List.mem_append]; rfl

/-! ### Aggregates -/

/-- New rows add what they weigh. -/
theorem total_insertAll (t : Table α) (ds : List (NewRow α)) (w : α → ℕ) :
    (t.insertAll ds).total w = t.total w + ((made t.next ds).map w).sum := by
  simp [total, rows_insertAll]

/-- A new row adds what it weighs. -/
theorem total_insert (t : Table α) (d : NewRow α) (w : α → ℕ) :
    (t.insert d).total w = t.total w + w (d.make t.next) := by
  simp [total, insert]

/-- An update changes what the rows selected weigh. -/
theorem total_modify (t : Table α) (p : α → Bool) (u : Edit α) (w : α → ℕ) :
    (t.modify p u).total w = t.total (fun r => if p r then w (u.apply r) else w r) := by
  unfold total modify
  rw [List.map_map]
  refine congrArg List.sum (List.map_congr_left (fun r _ => ?_))
  by_cases h : p r <;> simp [h]

/-- Deleted rows weigh nothing. -/
theorem total_delete (t : Table α) (p : α → Bool) (w : α → ℕ) :
    (t.delete p).total w = t.total (fun r => if p r then 0 else w r) := by
  show ((t.rows.filter (fun r => !p r)).map w).sum = _
  unfold total
  induction t.rows with
  | nil => rfl
  | cons r rs ih =>
    by_cases h : p r
    · simpa [h] using ih
    · simpa [h] using ih

/-- When every row weighs at most as much, so does the table. -/
theorem total_mono {t : Table α} {w w' : α → ℕ} (h : ∀ r ∈ t, w r ≤ w' r) :
    t.total w ≤ t.total w' := List.sum_le_sum h

/-- When every row weighs the same, so does the table. -/
theorem total_congr {t : Table α} {w w' : α → ℕ} (h : ∀ r ∈ t, w r = w' r) :
    t.total w = t.total w' := congrArg List.sum (List.map_congr_left h)

/-- Two weights add up row by row. -/
theorem total_add (t : Table α) (w w' : α → ℕ) :
    t.total (fun r => w r + w' r) = t.total w + t.total w' := by
  unfold total
  induction t.rows with
  | nil => rfl
  | cons r rs ih =>
    simp only [List.map_cons, List.sum_cons, ih]
    omega

/-- A table weighs nothing when no row does. -/
theorem total_eq_zero {t : Table α} {w : α → ℕ} : t.total w = 0 ↔ ∀ r ∈ t, w r = 0 := by
  unfold total
  rw [List.sum_eq_zero_iff]
  simp [mem_def]

/-- An aggregate is at least the weight of each row. -/
theorem le_total {t : Table α} {r : α} (hr : r ∈ t) (w : α → ℕ) : w r ≤ t.total w :=
  List.single_le_sum (fun _ _ => Nat.zero_le _) _ (List.mem_map_of_mem hr)

/-- An aggregate that vanishes off one row is the weight of that row. -/
theorem total_eq_of_unique {t : Table α} {r : α} (hr : r ∈ t) {w : α → ℕ}
    (h : ∀ x ∈ t, x ≠ r → w x = 0) : t.total w = w r := by
  have hnd : t.rows.Nodup := List.Nodup.of_map pk (t.sorted.imp (fun hlt => Nat.ne_of_lt hlt))
  exact Sums.sum_of_unique hnd hr h

/-- Overwriting a row trades its weight for that of the new version. -/
theorem total_put {t : Table α} {r r' : α} (hr : r ∈ t) (hpk : pk r' = pk r) (w : α → ℕ) :
    (t.put r').total w + w r = t.total w + w r' := by
  have hnd : (t.rows.map pk).Nodup := t.sorted.imp (fun hlt => Nat.ne_of_lt hlt)
  have hold : (t.rows.map (fun x => if pk x = pk r then w x else 0)).sum = w r :=
    Sums.sum_key hnd hr w
  have hnew : (t.rows.map (fun x => if pk x = pk r then w r' else 0)).sum = w r' := by
    rw [Sums.sum_const_key hnd, if_pos (List.mem_map.mpr ⟨r, hr, rfl⟩)]
  -- row by row, only the one with the key changes what it weighs
  have hrow : ∀ x : α, w (if pk x = pk r' then r' else x) + (if pk x = pk r then w x else 0)
      = w x + (if pk x = pk r then w r' else 0) := by
    intro x
    rw [hpk]
    by_cases hx : pk x = pk r
    · rw [if_pos hx, if_pos hx, if_pos hx, Nat.add_comm]
    · rw [if_neg hx, if_neg hx, if_neg hx]
  show ((t.rows.map (fun x => if pk x = pk r' then r' else x)).map w).sum + w r = t.total w + w r'
  rw [List.map_map, ← hold, ← hnew]
  unfold total
  rw [← List.sum_map_add, ← List.sum_map_add]
  exact congrArg List.sum (List.map_congr_left (fun x _ => hrow x))

/-- A filtered sum is the aggregate of a weight that vanishes off the filter. -/
theorem sum_select (t : Table α) (p : α → Bool) (w : α → ℕ) :
    ((t.select p).map w).sum = t.total (fun r => if p r then w r else 0) := by
  unfold total select
  induction t.rows with
  | nil => rfl
  | cons r rs ih =>
    by_cases h : p r
    · simpa [h] using ih
    · simpa [h] using ih

/-! ### Selections after a write -/

/-- A query finds the new rows after the old ones. -/
theorem select_insertAll (t : Table α) (ds : List (NewRow α)) (p : α → Bool) :
    (t.insertAll ds).select p = t.select p ++ (made t.next ds).filter p := by
  simp [select, rows_insertAll]

/-- New rows that are all selected come after the old ones. -/
theorem select_insertAll_of {t : Table α} {ds : List (NewRow α)} {p : α → Bool}
    (h : ∀ r ∈ made t.next ds, p r = true) :
    (t.insertAll ds).select p = t.select p ++ made t.next ds := by
  rw [select_insertAll, List.filter_eq_self.mpr h]

/-- New rows of which none is selected leave the selection alone. -/
theorem select_insertAll_of_disjoint {t : Table α} {ds : List (NewRow α)} {p : α → Bool}
    (h : ∀ r ∈ made t.next ds, ¬ p r = true) : (t.insertAll ds).select p = t.select p := by
  rw [select_insertAll, List.filter_eq_nil_iff.mpr h, List.append_nil]

/-- A query finds the new row after the old ones. -/
theorem select_insert (t : Table α) (d : NewRow α) (p : α → Bool) :
    (t.insert d).select p = t.select p ++ [d.make t.next].filter p :=
  List.filter_append ..

/-- A new row that is selected comes last. -/
theorem select_insert_of {t : Table α} {d : NewRow α} {p : α → Bool}
    (h : p (d.make t.next) = true) : (t.insert d).select p = t.select p ++ [d.make t.next] := by
  rw [select_insert, List.filter_cons_of_pos h, List.filter_nil]

/-- A new row that is not selected leaves the selection alone. -/
theorem select_insert_of_disjoint {t : Table α} {d : NewRow α} {p : α → Bool}
    (h : ¬ p (d.make t.next) = true) : (t.insert d).select p = t.select p := by
  rw [select_insert, List.filter_cons_of_neg h, List.filter_nil, List.append_nil]

/-- The new row is the only one with a key from the sequence on. -/
theorem select_insert_fresh (t : Table α) (d : NewRow α) :
    (t.insert d).select (fun r => t.next ≤ pk r) = [d.make t.next] := by
  have hold : t.select (fun r => t.next ≤ pk r) = [] := by
    refine List.filter_eq_nil_iff.mpr (fun r hr => ?_)
    have hlt : pk r < t.next := t.bounded r hr
    simpa using hlt
  have hnew : t.next ≤ pk (d.make t.next) := (d.pk_make t.next).ge
  refine (select_insert_of ?_).trans (by rw [hold, List.nil_append])
  exact decide_eq_true hnew

/-- A rewrite that keeps `p` rewrites the selection row by row. -/
theorem select_modify (t : Table α) (p q : α → Bool) (u : Edit α)
    (hp : ∀ r, p (u.apply r) = p r) :
    (t.modify q u).select p = (t.select p).map (fun r => if q r then u.apply r else r) := by
  show (t.rows.map (fun r => if q r then u.apply r else r)).filter p = _
  unfold select
  induction t.rows with
  | nil => rfl
  | cons r rs ih =>
    by_cases hq : q r <;> by_cases hpr : p r <;> simp [hq, hpr, hp, ih]

omit [Row α] in
/-- A change of rows that a query does not select leaves its result alone. -/
private theorem filter_map_eq {rows : List α} {p : α → Bool} {f : α → α}
    (hp : ∀ r ∈ rows, p (f r) = p r) (hf : ∀ r ∈ rows, p r = true → f r = r) :
    (rows.map f).filter p = rows.filter p := by
  rw [List.filter_map]
  have hcongr : rows.filter (p ∘ f) = rows.filter p := List.filter_congr (fun r hr => hp r hr)
  rw [hcongr]
  conv_rhs => rw [← List.map_id (rows.filter p)]
  refine List.map_congr_left (fun r hr => ?_)
  obtain ⟨hmem, hpr⟩ := List.mem_filter.mp hr
  exact hf r hmem hpr

/-- A rewrite that keeps `p` and misses every row of the selection leaves it as it was. -/
theorem select_modify_of_disjoint (t : Table α) (p q : α → Bool) (u : Edit α)
    (hp : ∀ r, p (u.apply r) = p r) (hd : ∀ r ∈ t, p r = true → q r = false) :
    (t.modify q u).select p = t.select p := by
  refine filter_map_eq (fun r _ => ?_) (fun r hr hpr => by simp [hd r hr hpr])
  by_cases hq : q r = true <;> simp [hq, hp]

/-- Overwriting a row outside a selection with one outside it leaves the selection. -/
theorem select_put_of_disjoint {t : Table α} {p : α → Bool} {x r : α} (hx : x ∈ t)
    (hpk : pk x = pk r) (hpx : p x = false) (hpr : p r = false) :
    (t.put r).select p = t.select p := by
  -- the row that is overwritten was not selected
  have hrow : ∀ y ∈ t.rows, pk y = pk r → p y = false := by
    intro y hy hyr
    rw [eq_of_pk_eq (t := t) hy hx (hyr.trans hpk.symm)]
    exact hpx
  refine filter_map_eq (fun y hy => ?_) (fun y hy hpy => ?_)
  · by_cases h : pk y = pk r
    · rw [if_pos h, hpr, hrow y hy h]
    · rw [if_neg h]
  · refine if_neg (fun h => ?_)
    rw [hrow y hy h] at hpy
    cases hpy

/-- Overwriting a row inside a selection with one inside it overwrites it in the selection. -/
theorem select_put {t : Table α} {p : α → Bool} {x r : α} (hx : x ∈ t) (hpk : pk x = pk r)
    (hpx : p x = true) (hpr : p r = true) :
    (t.put r).select p = (t.select p).map (fun y => if pk y = pk r then r else y) := by
  show (t.rows.map (fun y => if pk y = pk r then r else y)).filter p = _
  rw [List.filter_map]
  refine congrArg (List.map _) (List.filter_congr (fun y hy => ?_))
  by_cases h : pk y = pk r
  · rw [Function.comp_apply, if_pos h, hpr, eq_of_pk_eq (t := t) hy hx (h.trans hpk.symm), hpx]
  · rw [Function.comp_apply, if_neg h]

/-- What is read of a selection depends only on what the rows are selected by and read for. -/
theorem map_select_congr {β γ : Type} {key : α → β} {t t' : Table α}
    (h : t'.rows.map key = t.rows.map key) (p : β → Bool) (g : β → γ) :
    (t'.select (p ∘ key)).map (g ∘ key) = (t.select (p ∘ key)).map (g ∘ key) := by
  unfold select
  rw [← List.map_map, ← List.map_map, ← List.filter_map, ← List.filter_map, h]

/-- What a query finds after rows are deleted. -/
theorem select_delete (t : Table α) (p q : α → Bool) :
    (t.delete q).select p = (t.select p).filter (fun r => !q r) := by
  simp only [select, delete, List.filter_filter, Bool.and_comm]

/-- Deleting rows that a query does not select leaves its result alone. -/
theorem select_delete_of_disjoint (t : Table α) (p q : α → Bool)
    (hd : ∀ r ∈ t, p r = true → q r = false) : (t.delete q).select p = t.select p := by
  rw [select_delete, List.filter_eq_self]
  intro r hr
  obtain ⟨hmem, hp⟩ := mem_select.mp hr
  simp [hd r hmem hp]

/-! ### Tables that evolve row by row -/

/-- Every row of `t` is in `t'` under its key, as an `R`-successor of itself. -/
def Evolves (R : α → α → Prop) (t t' : Table α) : Prop := ∀ r ∈ t, ∃ r' ∈ t', pk r' = pk r ∧ R r r'

variable {R : α → α → Prop}

/-- A table evolves into itself. -/
theorem Evolves.refl (hR : ∀ r, R r r) (t : Table α) : Evolves R t t :=
  fun r hr => ⟨r, hr, rfl, hR r⟩

/-- A table that evolves by a relation evolves by a weaker one. -/
theorem Evolves.mono {R' : α → α → Prop} {t t' : Table α} (h : Evolves R t t')
    (hR : ∀ r r', R r r' → R' r r') : Evolves R' t t' := by
  intro r hr
  obtain ⟨r', hr', hpk, hrel⟩ := h r hr
  exact ⟨r', hr', hpk, hR r r' hrel⟩

/-- Two evolutions in a row are one. -/
theorem Evolves.trans (hR : ∀ r r' r'', R r r' → R r' r'' → R r r'') {t t' t'' : Table α}
    (h : Evolves R t t') (h' : Evolves R t' t'') : Evolves R t t'' := by
  intro r hr
  obtain ⟨r', hr', hpk, hrel⟩ := h r hr
  obtain ⟨r'', hr'', hpk', hrel'⟩ := h' r' hr'
  exact ⟨r'', hr'', hpk'.trans hpk, hR r r' r'' hrel hrel'⟩

/-- The row of a key and its successor. -/
theorem Evolves.rel {t t' : Table α} (h : Evolves R t t') {r r' : α} (hr : r ∈ t) (hr' : r' ∈ t')
    (hpk : pk r' = pk r) : R r r' := by
  obtain ⟨x, hx, hxk, hrel⟩ := h r hr
  rwa [eq_of_pk_eq hx hr' (hxk.trans hpk.symm)] at hrel

/-- An insert changes no old row. -/
theorem evolves_insert (hR : ∀ r, R r r) (t : Table α) (d : NewRow α) :
    Evolves R t (t.insert d) :=
  fun r hr => ⟨r, mem_insert.mpr (Or.inl hr), rfl, hR r⟩

/-- An update changes old rows as its edit does. -/
theorem evolves_modify (hR : ∀ r, R r r) {t : Table α} {p : α → Bool} {u : Edit α}
    (hu : ∀ r, R r (u.apply r)) : Evolves R t (t.modify p u) := by
  intro r hr
  refine ⟨_, mem_modify.mpr ⟨r, hr, rfl⟩, ?_⟩
  by_cases h : p r = true
  · rw [if_pos h]
    exact ⟨u.pk_apply r, hu r⟩
  · rw [if_neg h]
    exact ⟨rfl, hR r⟩

/-- Saving a row changes the one with its key. -/
theorem evolves_put (hR : ∀ r, R r r) {t : Table α} {r r' : α} (hr : r ∈ t) (hpk : pk r' = pk r)
    (hrel : R r r') : Evolves R t (t.put r') := by
  intro x hx
  by_cases hxr : pk x = pk r
  · have heq : x = r := eq_of_pk_eq hx hr hxr
    subst heq
    exact ⟨r', (mem_put ⟨x, hx, hpk.symm⟩).mpr (Or.inl rfl), hpk, hrel⟩
  · exact ⟨x, mem_put_of_ne hx (fun hc => hxr (hc.trans hpk)), rfl, hR x⟩

end Table

end Relational
