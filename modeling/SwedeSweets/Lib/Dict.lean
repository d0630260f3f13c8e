import SwedeSweets.Lib.Fallible
import Mathlib.Algebra.BigOperators.Group.List.Basic
import Mathlib.Data.List.Dedup
import Mathlib.Tactic.Common

/-!
# Insertion-ordered dictionaries

A `Dict κ V` is a finite map listed in insertion order, with no key twice.  `ofKeys` is a
dictionary comprehension, `set` the assignment `d[k] = v`, `add` the update `d[k] += v` of a
dictionary with default `0`,
and `accumulate` the loop that folds a list of key-value pairs with it: it maps each key
to the sum of the values listed under it (`getD_accumulate`).
-/

/-- The order in which a collection without an order of its own is gone through: any order,
    without repetitions. -/
structure SetOrder (α : Type) where
  arrange : List α → List α
  perm : ∀ xs, (arrange xs).Perm xs

/-- A finite map in insertion order. -/
structure Dict (κ V : Type) where
  entries : List (κ × V)
  nodup : (entries.map Prod.fst).Nodup

namespace Dict

open Fallible

variable {κ V : Type} [DecidableEq κ]

/-- The keys, in insertion order. -/
def keys (d : Dict κ V) : List κ := d.entries.map Prod.fst

/-- The values, in insertion order. -/
def values (d : Dict κ V) : List V := d.entries.map Prod.snd

/-- The value under `k`. -/
def get? (d : Dict κ V) (k : κ) : Option V := d.entries.lookup k

/-- The value under `k`, or the default. -/
def getD (d : Dict κ V) (k : κ) (v : V) : V := (d.get? k).getD v

/-- The dictionary without entries. -/
def empty : Dict κ V := ⟨[], List.nodup_nil⟩

/-- An entry under another key is passed over. -/
private theorem lookup_cons_ne {x : κ × V} {xs : List (κ × V)} {k : κ} (h : ¬ k = x.1) :
    (x :: xs).lookup k = xs.lookup k := by
  have hb : (k == x.1) = false := by simpa using h
  rw [List.lookup_cons, hb]

omit [DecidableEq κ] in
/-- Keys paired with values are still the keys. -/
private theorem keys_map_pair (ks : List κ) (f : κ → V) :
    (ks.map (fun k => (k, f k))).map Prod.fst = ks := by
  rw [List.map_map]
  exact List.map_id ks

/-- The comprehension `{k: f k for k in ks}`. -/
def ofKeys (ks : List κ) (f : κ → V) : Dict κ V where
  entries := ks.dedup.map (fun k => (k, f k))
  nodup := by rw [keys_map_pair]; exact ks.nodup_dedup

/-- A table built from keys has exactly these. -/
theorem get?_ofKeys (ks : List κ) (f : κ → V) (k : κ) :
    (ofKeys ks f).get? k = if k ∈ ks then some (f k) else none := by
  have key : ∀ l : List κ,
      (l.map (fun k => (k, f k))).lookup k = if k ∈ l then some (f k) else none := by
    intro l
    induction l with
    | nil => rfl
    | cons x xs ih =>
      by_cases h : k = x
      · subst h; simp
      · rw [List.map_cons, lookup_cons_ne h, ih]
        simp [h]
  rw [get?, ofKeys, key]
  -- a key given twice is still one key
  simp [List.mem_dedup]

/-- A table built from keys, with a default for all others. -/
theorem getD_ofKeys (ks : List κ) (f : κ → V) (k : κ) (v : V) :
    (ofKeys ks f).getD k v = if k ∈ ks then f k else v := by
  rw [getD, get?_ofKeys]
  by_cases h : k ∈ ks <;> simp [h]

/-! ### Lists with keys -/

omit [DecidableEq κ] in
/-- Entries that keep their key stay distinct. -/
theorem nodup_filterMap {α β : Type} {f : α → Option β} (key : α → κ) (key' : β → κ) {xs : List α}
    (hkey : ∀ x y, f x = some y → key' y = key x) (hnd : (xs.map key).Nodup) :
    ((xs.filterMap f).map key').Nodup := by
  refine hnd.sublist ?_
  clear hnd
  induction xs with
  | nil => exact List.Sublist.slnil
  | cons x xs ih =>
    -- what is dropped leaves a sublist of the keys
    cases hf : f x with
    | none =>
      rw [List.filterMap_cons_none hf]
      exact ih.cons _
    | some y =>
      rw [List.filterMap_cons_some hf, List.map_cons, List.map_cons, hkey x y hf]
      exact ih.cons_cons _

section

variable {α : Type} [BEq α] [LawfulBEq α]

/-- Looking a key up in a list without duplicate keys. -/
theorem lookup_eq_some_iff_mem {xs : List (α × V)} (hnd : (xs.map Prod.fst).Nodup) {k : α} {v : V} :
    xs.lookup k = some v ↔ (k, v) ∈ xs := by
  constructor
  · intro h
    obtain ⟨pre, post, hsplit, -⟩ := List.lookup_eq_some_iff.mp h
    rw [hsplit]
    simp
  · intro h
    cases hfind : xs.lookup k with
    | none =>
      rw [List.lookup_eq_none_iff] at hfind
      have hne := hfind _ h
      simp at hne
    -- two entries with one key are the same entry
    | some w =>
      obtain ⟨pre, post, hsplit, -⟩ := List.lookup_eq_some_iff.mp hfind
      have hmem : (k, w) ∈ xs := by
        rw [hsplit]; simp
      exact congrArg (some ·.2) (List.inj_on_of_nodup_map hnd hmem h rfl)

/-- Things listed under their own keys are found under them. -/
theorem lookup_keyed {key : V → α} {xs : List V} (hnd : (xs.map key).Nodup) {k : α} {x : V} :
    (xs.map (fun x => (key x, x))).lookup k = some x ↔ x ∈ xs ∧ key x = k := by
  have hnd' : ((xs.map (fun x => (key x, x))).map Prod.fst).Nodup := by
    rw [List.map_map]
    exact hnd
  rw [lookup_eq_some_iff_mem hnd', List.mem_map]
  constructor
  · rintro ⟨y, hy, hyx⟩
    obtain ⟨hk, rfl⟩ := Prod.mk.inj hyx
    exact ⟨hy, hk⟩
  · rintro ⟨hx, rfl⟩
    exact ⟨x, hx, rfl⟩

/-- Nothing is found under a key that no thing has. -/
theorem lookup_keyed_isNone {key : V → α} {xs : List V} {k : α} :
    ((xs.map (fun x => (key x, x))).lookup k).isNone = true ↔ ∀ x ∈ xs, key x ≠ k := by
  rw [Option.isNone_iff_eq_none, List.lookup_eq_none_iff]
  simp only [List.forall_mem_map, bne_iff_ne, ne_eq]
  exact forall₂_congr (fun x _ => not_congr eq_comm)

end

/-! ### Assignment -/

/-- `d[k] = v` on a list of entries: in place when the key is there, else at the end. -/
def setEntry (k : κ) (v : V) : List (κ × V) → List (κ × V)
  | [] => [(k, v)]
  | e :: es => if e.1 = k then (e.1, v) :: es else e :: setEntry k v es

/-- Setting an entry adds its key at the end, if it is new. -/
theorem map_fst_setEntry (k : κ) (v : V) (es : List (κ × V)) :
    (setEntry k v es).map Prod.fst
      = if k ∈ es.map Prod.fst then es.map Prod.fst else es.map Prod.fst ++ [k] := by
  induction es with
  | nil => simp [setEntry]
  | cons e es ih =>
    by_cases h : e.1 = k
    · simp [setEntry, h]
    · have h' : ¬ k = e.1 := fun hk => h hk.symm
      simp only [setEntry, h, if_false, List.map_cons, ih, List.mem_cons, h', false_or]
      by_cases hm : k ∈ es.map Prod.fst <;> simp [hm]

/-- `d[k] = v`. -/
def set (d : Dict κ V) (k : κ) (v : V) : Dict κ V where
  entries := setEntry k v d.entries
  nodup := by
    rw [map_fst_setEntry]
    by_cases h : k ∈ d.entries.map Prod.fst
    · rw [if_pos h]; exact d.nodup
    · rw [if_neg h, List.nodup_append]
      refine ⟨d.nodup, by simp, fun a ha b hb hab => ?_⟩
      rw [List.mem_singleton] at hb
      exact h (hb ▸ hab ▸ ha)

/-- Setting a key changes what is found under this key only. -/
theorem get?_set (d : Dict κ V) (k k' : κ) (v : V) :
    (d.set k v).get? k' = if k' = k then some v else d.get? k' := by
  show (setEntry k v d.entries).lookup k' = if k' = k then some v else d.entries.lookup k'
  induction d.entries with
  | nil =>
    by_cases h : k' = k
    · simp [setEntry, h]
    · rw [setEntry, lookup_cons_ne h, if_neg h]
  | cons e es ih =>
    obtain ⟨x, w⟩ := e
    -- the first entry is the one replaced, or the rest is searched
    by_cases hx : x = k
    · subst hx
      by_cases h : k' = x
      · simp [setEntry, h]
      · have he : setEntry x v ((x, w) :: es) = (x, v) :: es := by simp [setEntry]
        rw [he, if_neg h, lookup_cons_ne h, lookup_cons_ne h]
    · have he : setEntry k v ((x, w) :: es) = (x, w) :: setEntry k v es := by simp [setEntry, hx]
      have hkx : ¬ k = x := fun h => hx h.symm
      by_cases h : k' = x
      · subst h; simp [he, hx]
      · rw [he, lookup_cons_ne h, lookup_cons_ne h]
        exact ih

/-- Setting a key adds it to the keys. -/
theorem mem_keys_set (d : Dict κ V) (k k' : κ) (v : V) :
    k' ∈ (d.set k v).keys ↔ k' ∈ d.keys ∨ k' = k := by
  show k' ∈ (setEntry k v d.entries).map Prod.fst ↔ _
  rw [map_fst_setEntry]
  by_cases h : k ∈ d.entries.map Prod.fst
  · rw [if_pos h]
    refine ⟨Or.inl, fun hk => hk.elim id (fun hk => ?_)⟩
    rw [hk]
    exact h
  · rw [if_neg h, List.mem_append, List.mem_singleton]
    rfl

/-- Setting many keys adds all of them. -/
theorem mem_keys_foldl_set {α : Type} {key : α → κ} {value : α → V} {xs : List α} (d : Dict κ V)
    {k : κ} : k ∈ (xs.foldl (fun d x => d.set (key x) (value x)) d).keys ↔
      k ∈ d.keys ∨ k ∈ xs.map key := by
  induction xs generalizing d with
  | nil => simp
  | cons x xs ih => rw [List.foldl_cons, ih, mem_keys_set, List.map_cons, List.mem_cons, or_assoc]

/-- Assigning several keys, a key always the same value. -/
theorem get?_foldl_set {α : Type} {key : α → κ} {value : α → V} {xs : List α}
    (hsame : ∀ x ∈ xs, ∀ y ∈ xs, key x = key y → value x = value y) (d : Dict κ V) {k : κ} {v : V} :
    (xs.foldl (fun d x => d.set (key x) (value x)) d).get? k = some v ↔
      (∃ x ∈ xs, key x = k ∧ value x = v) ∨ ((∀ x ∈ xs, key x ≠ k) ∧ d.get? k = some v) := by
  induction xs generalizing d with
  | nil => simp
  | cons x xs ih =>
    have hrest : ∀ y ∈ xs, ∀ z ∈ xs, key y = key z → value y = value z := fun y hy z hz =>
      hsame y (List.mem_cons_of_mem _ hy) z (List.mem_cons_of_mem _ hz)
    -- `x` is set first, so a later element with its key decides
    rw [List.foldl_cons, ih hrest, get?_set, List.exists_mem_cons_iff, List.forall_mem_cons]
    constructor
    · rintro (hlater | ⟨hnone, hd⟩)
      · exact Or.inl (Or.inr hlater)
      · by_cases hx : k = key x
        · rw [if_pos hx, Option.some.injEq] at hd
          exact Or.inl (Or.inl ⟨hx.symm, hd⟩)
        · rw [if_neg hx] at hd
          exact Or.inr ⟨⟨fun he => hx he.symm, hnone⟩, hd⟩
    · rintro ((⟨hx, hv⟩ | hlater) | ⟨⟨hx, hnone⟩, hd⟩)
      · by_cases hlater : ∃ y ∈ xs, key y = k
        · obtain ⟨y, hy, hyk⟩ := hlater
          have hyx := hsame y (List.mem_cons_of_mem _ hy) x (List.mem_cons_self ..)
            (hyk.trans hx.symm)
          exact Or.inl ⟨y, hy, hyk, hyx.trans hv⟩
        · push Not at hlater
          exact Or.inr ⟨hlater, by rw [if_pos hx.symm, hv]⟩
      · exact Or.inl hlater
      · exact Or.inr ⟨hnone, by rw [if_neg (fun he => hx he.symm)]; exact hd⟩

/-- `d.update(es)`. -/
def update (d : Dict κ V) (es : List (κ × V)) : Dict κ V := es.foldl (fun d e => d.set e.1 e.2) d

/-- An update by a list without duplicate keys overrides what was there. -/
theorem get?_update {es : List (κ × V)} (hnd : (es.map Prod.fst).Nodup) (d : Dict κ V) (k : κ) :
    (d.update es).get? k = (es.lookup k).or (d.get? k) := by
  induction es generalizing d with
  | nil => rfl
  | cons e es ih =>
    rw [List.map_cons, List.nodup_cons] at hnd
    show ((d.set e.1 e.2).update es).get? k = _
    rw [ih hnd.2, get?_set]
    -- no later entry has the key of the first one
    by_cases hk : k = e.1
    · have hnone : es.lookup k = none := by
        rw [hk, List.lookup_eq_none_iff]
        intro x hx
        have hne : e.1 ≠ x.1 := fun h => hnd.1 (h ▸ List.mem_map_of_mem hx)
        simpa using hne
      have hself : (e :: es).lookup k = some e.2 := by
        rw [List.lookup_cons, hk, beq_self_eq_true]
      rw [hnone, hself, if_pos hk]
      rfl
    · rw [lookup_cons_ne hk, if_neg hk]

/-- Updating different keys, each from the value under it. -/
theorem get?_foldl_update {f : κ → Option V → V} {ks : List κ} (hnd : ks.Nodup) (d : Dict κ V)
    (k : κ) :
    (ks.foldl (fun d k => d.set k (f k (d.get? k))) d).get? k
      = if k ∈ ks then some (f k (d.get? k)) else d.get? k := by
  induction ks generalizing d with
  | nil => simp
  | cons x xs ih =>
    obtain ⟨hx, hnd⟩ := List.nodup_cons.mp hnd
    rw [List.foldl_cons, ih hnd, get?_set]
    -- each key is updated once, so it sees the old value
    by_cases hk : k = x
    · subst hk
      simp [hx]
    · simp [hk]

/-! ### Accumulation -/

variable [AddCommMonoid V]

/-- `d[k] += v` on a list of entries: in place when the key is there, else at the end. -/
def addEntry (k : κ) (v : V) : List (κ × V) → List (κ × V)
  | [] => [(k, v)]
  | e :: es => if e.1 = k then (e.1, e.2 + v) :: es else e :: addEntry k v es

/-- Adding to an entry adds its key at the end, if it is new. -/
theorem map_fst_addEntry (k : κ) (v : V) (es : List (κ × V)) :
    (addEntry k v es).map Prod.fst
      = if k ∈ es.map Prod.fst then es.map Prod.fst else es.map Prod.fst ++ [k] := by
  induction es with
  | nil => simp [addEntry]
  | cons e es ih =>
    by_cases h : e.1 = k
    · simp [addEntry, h]
    · have h' : ¬ k = e.1 := fun hk => h hk.symm
      simp only [addEntry, h, if_false, List.map_cons, ih, List.mem_cons, h', false_or]
      by_cases hm : k ∈ es.map Prod.fst <;> simp [hm]

/-- `d[k] += v` with default `0`. -/
def add (d : Dict κ V) (k : κ) (v : V) : Dict κ V where
  entries := addEntry k v d.entries
  nodup := by
    rw [map_fst_addEntry]
    by_cases h : k ∈ d.entries.map Prod.fst
    · rw [if_pos h]; exact d.nodup
    · rw [if_neg h, List.nodup_append]
      refine ⟨d.nodup, by simp, ?_⟩
      intro a ha b hb hab
      rw [List.mem_singleton] at hb
      exact h (hb ▸ hab ▸ ha)

/-- The loop `for k, v in xs: d[k] += v`. -/
def accumulate (xs : List (κ × V)) : Dict κ V := xs.foldl (fun d x => d.add x.1 x.2) empty

/-- Adding to a key adds it to the keys. -/
theorem mem_keys_add (d : Dict κ V) (k k' : κ) (v : V) :
    k' ∈ (d.add k v).keys ↔ k' ∈ d.keys ∨ k' = k := by
  show k' ∈ (addEntry k v d.entries).map Prod.fst ↔ _
  rw [map_fst_addEntry]
  by_cases h : k ∈ d.entries.map Prod.fst
  · rw [if_pos h]
    exact ⟨Or.inl, fun hk => hk.elim id (fun e => e ▸ h)⟩
  · rw [if_neg h, List.mem_append, List.mem_singleton]; rfl

/-- Adding changes the sum under this key only. -/
theorem getD_add (d : Dict κ V) (k k' : κ) (v : V) :
    (d.add k v).getD k' 0 = if k' = k then d.getD k 0 + v else d.getD k' 0 := by
  show (((addEntry k v d.entries).lookup k').getD 0) = _
  unfold getD get?
  induction d.entries with
  | nil =>
    by_cases h : k' = k
    · simp [addEntry, h]
    · rw [addEntry, lookup_cons_ne h, if_neg h]
  | cons e es ih =>
    obtain ⟨x, q⟩ := e
    -- the first entry takes the amount, or the rest is searched
    by_cases hx : x = k
    · subst hx
      by_cases h : k' = x
      · simp [addEntry, h]
      · have he : addEntry x v ((x, q) :: es) = (x, q + v) :: es := by simp [addEntry]
        rw [he, if_neg h, lookup_cons_ne h, lookup_cons_ne h]
    · have he : addEntry k v ((x, q) :: es) = (x, q) :: addEntry k v es := by simp [addEntry, hx]
      have hkx : ¬ k = x := fun h => hx h.symm
      by_cases h : k' = x
      · subst h; simp [he, hx]
      · rw [he, lookup_cons_ne h, lookup_cons_ne hkx, lookup_cons_ne h]
        exact ih

/-- What is found under a key, and which keys there are, after adding many entries. -/
private theorem foldl_add (xs : List (κ × V)) (d : Dict κ V) (k : κ) :
    (xs.foldl (fun d x => d.add x.1 x.2) d).getD k 0
        = d.getD k 0 + (xs.map (fun x => if x.1 = k then x.2 else 0)).sum
      ∧ (k ∈ (xs.foldl (fun d x => d.add x.1 x.2) d).keys ↔ k ∈ d.keys ∨ k ∈ xs.map Prod.fst) := by
  induction xs generalizing d with
  | nil => simp
  | cons x xs ih =>
    obtain ⟨hget, hkey⟩ := ih (d.add x.1 x.2)
    constructor
    · rw [List.foldl_cons, hget, getD_add, List.map_cons, List.sum_cons]
      by_cases h : k = x.1
      · simp [h, add_assoc]
      · have h' : ¬ x.1 = k := fun e => h e.symm
        simp [h, h']
    · rw [List.foldl_cons, hkey, mem_keys_add, List.map_cons, List.mem_cons, or_assoc]

/-- Each key is mapped to the sum of the values listed under it. -/
theorem getD_accumulate (xs : List (κ × V)) (k : κ) :
    (accumulate xs).getD k 0 = (xs.map (fun x => if x.1 = k then x.2 else 0)).sum := by
  have h := (foldl_add xs empty k).1
  rw [show (empty : Dict κ V).getD k 0 = 0 from rfl, zero_add] at h
  exact h

/-- The keys of accumulated entries are the keys of these. -/
theorem mem_keys_accumulate {xs : List (κ × V)} {k : κ} :
    k ∈ (accumulate xs).keys ↔ k ∈ xs.map Prod.fst := by
  have h := (foldl_add xs empty k).2
  simpa [accumulate, keys, empty] using h

/-- A loop that may raise, and adds one entry for each element, accumulates the entries. -/
theorem foldlM_add_eq_ok {ε α : Type} {f : α → Except ε (κ × V)}
    {g : Dict κ V → α → Except ε (Dict κ V)}
    (hg : ∀ d x d', g d x = .ok d' ↔ ∃ e, f x = .ok e ∧ d.add e.1 e.2 = d') {xs : List α}
    {d' : Dict κ V} :
    xs.foldlM g empty = .ok d' ↔ ∃ es, xs.mapM f = .ok es ∧ accumulate es = d' := by
  -- generalized over the table that the loop starts from
  have hfrom : ∀ d : Dict κ V, xs.foldlM g d = .ok d' ↔
      ∃ es, xs.mapM f = .ok es ∧ es.foldl (fun d e => d.add e.1 e.2) d = d' := by
    induction xs with
    | nil => simp
    | cons x xs ih =>
      intro d
      simp only [List.foldlM_cons, List.mapM_cons, bind_eq_ok, pure_eq_ok, hg, ih]
      constructor
      · rintro ⟨_, ⟨e, he, rfl⟩, es, hes, hd⟩
        exact ⟨e :: es, ⟨e, he, es, hes, rfl⟩, hd⟩
      · rintro ⟨_, ⟨e, he, es, hes, rfl⟩, hd⟩
        exact ⟨_, ⟨e, he, rfl⟩, es, hes, hd⟩
  exact hfrom empty

omit [AddCommMonoid V] in
/-- What is found under the key of an entry is its value. -/
theorem getD_of_mem {d : Dict κ V} {e : κ × V} (he : e ∈ d.entries) (v : V) :
    d.getD e.1 v = e.2 := by
  rw [getD, get?, (lookup_eq_some_iff_mem d.nodup).mpr he]
  rfl

/-- The entries of an accumulation: one for each key, with the sum of the values under it. -/
theorem mem_entries_accumulate {xs : List (κ × V)} {e : κ × V} :
    e ∈ (accumulate xs).entries ↔ e.1 ∈ xs.map Prod.fst
      ∧ e.2 = (xs.map (fun x => if x.1 = e.1 then x.2 else 0)).sum := by
  rw [← getD_accumulate, ← mem_keys_accumulate]
  constructor
  · exact fun he => ⟨List.mem_map_of_mem he, (getD_of_mem he 0).symm⟩
  · rintro ⟨hkey, hvalue⟩
    obtain ⟨e', he', hk⟩ := List.mem_map.mp hkey
    rw [← hk, getD_of_mem he' 0] at hvalue
    rwa [← Prod.ext hk hvalue.symm]

omit [AddCommMonoid V] in
/-- A value other than the default has an entry. -/
theorem exists_of_getD_ne {d : Dict κ V} {k : κ} {v : V} (h : d.getD k v ≠ v) :
    ∃ e ∈ d.entries, e.1 = k := by
  by_contra hnone
  push Not at hnone
  refine h ?_
  -- without an entry the default would be found
  have hlook : d.entries.lookup k = none := by
    rw [List.lookup_eq_none_iff]
    intro e he
    simpa using fun hk => hnone e he hk.symm
  rw [getD, get?, hlook]
  rfl

omit [AddCommMonoid V] in
/-- Nothing is found under a key that no entry has. -/
private theorem lookup_eq_none {es : List (κ × V)} {k : κ} (h : k ∉ es.map Prod.fst) :
    es.lookup k = none := by
  induction es with
  | nil => rfl
  | cons e es ih =>
    rw [List.map_cons, List.mem_cons, not_or] at h
    rw [lookup_cons_ne h.1]
    exact ih h.2

/-- Summing what a dictionary lists under one key, among the entries whose key satisfies
    `p`, gives the value under that key. -/
theorem sum_filter_entries (d : Dict κ V) (p : κ → Bool) (k : κ) :
    ((d.entries.filter (fun e => p e.1)).map (fun e => if e.1 = k then e.2 else 0)).sum
      = if p k = true then d.getD k 0 else 0 := by
  obtain ⟨es, hnd⟩ := d
  unfold getD get?
  induction es with
  | nil => simp
  | cons e es ih =>
    rw [List.map_cons, List.nodup_cons] at hnd
    have ih := ih hnd.2
    -- the entry for `k`, if there is one, is the only summand
    by_cases hk : k = e.1
    · subst hk
      have hrest : es.lookup e.1 = none := lookup_eq_none hnd.1
      have hself : (e :: es).lookup e.1 = some e.2 := by
        rw [List.lookup_cons, beq_self_eq_true]
      rw [hrest] at ih
      show _ = if p e.1 = true then (((e :: es).lookup e.1).getD 0) else 0
      rw [hself]
      by_cases hp : p e.1 = true
      · simp only [hp, if_true, Option.getD_none] at ih
        simp [hp, ih]
      · simp only [hp, Option.getD_none] at ih
        simpa [hp] using ih
    · have hk' : ¬ e.1 = k := fun h => hk h.symm
      show _ = if p k = true then (((e :: es).lookup k).getD 0) else 0
      rw [lookup_cons_ne hk, ← ih]
      by_cases hp : p e.1 = true <;> simp [hp, hk']

end Dict
