import Mathlib.Tactic.Common

namespace Fallible

/-!
# Fallible steps

Vocabulary for functions that either raise or return, in `Except ε`.

* `require` raises unless a condition holds, `orRaise` raises on a missing value; each
  has one lemma that says when it returns, and `bind_eq_ok` peels a sequence apart, so a
  successful run of a `do` block is read off as the list of facts it established.
* `Chain R xs s s'` — `s'` is reached from `s` by one `R`-step per element of `xs`; a loop
  that returns ran such a chain (`chain_of_foldlM`).
-/

variable {ε α β σ : Type}

/-- Raise `e` unless `c` holds. -/
def require (c : Prop) [Decidable c] (e : ε) : Except ε Unit := if c then .ok () else .error e

/-- The value, or raise `e`. -/
def orRaise (o : Option α) (e : ε) : Except ε α :=
  match o with
  | some a => .ok a
  | none => .error e

/-- A check returns when its condition holds. -/
@[simp] theorem require_eq_ok {c : Prop} [Decidable c] {e : ε} {u : Unit} :
    require c e = .ok u ↔ c := by
  by_cases h : c <;> simp [require, h]

/-- A check of what holds returns. -/
theorem require_of {c : Prop} [Decidable c] {e : ε} (h : c) : require c e = .ok () := by
  simp [h]

/-- A value that is there is returned. -/
@[simp] theorem orRaise_eq_ok {o : Option α} {e : ε} {a : α} :
    orRaise o e = .ok a ↔ o = some a := by
  cases o <;> simp [orRaise]

/-- A sequence returns when both parts do. -/
@[simp] theorem bind_eq_ok {x : Except ε α} {f : α → Except ε β} {b : β} :
    x >>= f = .ok b ↔ ∃ a, x = .ok a ∧ f a = .ok b := by
  cases x with
  | error e => simp [bind, Except.bind]
  | ok a => simp [bind, Except.bind]

/-- Returning a value returns it. -/
@[simp] theorem pure_eq_ok {a b : α} : (pure a : Except ε α) = .ok b ↔ a = b := by
  simp [pure, Except.pure]

/-- Raising does not return. -/
@[simp] theorem throw_eq_ok {e : ε} {a : α} : (throw e : Except ε α) = .ok a ↔ False := by
  simp [throw, throwThe, MonadExceptOf.throw]

/-! ### Raising -/

/-- A check raises when its condition fails. -/
@[simp] theorem require_eq_error {c : Prop} [Decidable c] {e e' : ε} :
    require c e = .error e' ↔ ¬ c ∧ e = e' := by
  by_cases h : c <;> simp [require, h]

/-- A sequence raises what its first part raises, or else its second. -/
@[simp] theorem bind_eq_error {x : Except ε α} {f : α → Except ε β} {e : ε} :
    x >>= f = .error e ↔ x = .error e ∨ ∃ a, x = .ok a ∧ f a = .error e := by
  cases x with
  | error e => simp [bind, Except.bind]
  | ok a => simp [bind, Except.bind]

/-! ### Returning, continued -/

/-- Translating errors leaves what is returned alone. -/
@[simp] theorem mapError_eq_ok {ε' : Type} {f : ε → ε'} {x : Except ε α} {a : α} :
    x.mapError f = .ok a ↔ x = .ok a := by
  cases x <;> simp [Except.mapError]

/-- Mapping over what is returned. -/
@[simp] theorem map_eq_ok {f : α → β} {x : Except ε α} {b : β} :
    x.map f = .ok b ↔ ∃ a, x = .ok a ∧ f a = b := by
  cases x <;> simp [Except.map]

/-- A result that is computed to be a return. -/
theorem exists_of_isOk {x : Except ε α} (h : x.isOk = true) : ∃ a, x = .ok a := by
  cases x with
  | error e => cases h
  | ok a => exact ⟨a, rfl⟩

/-- A result that is computed to be a return with some property. -/
theorem exists_of_any {x : Except ε α} {p : α → Bool} (h : x.toOption.any p = true) :
    ∃ a, x = .ok a ∧ p a = true := by
  cases x with
  | error e => cases h
  | ok a => exact ⟨a, rfl, h⟩

/-- What never returns raises. -/
theorem exists_error {x : Except ε α} (h : ∀ a, x ≠ .ok a) : ∃ e, x = .error e := by
  cases x with
  | error e => exact ⟨e, rfl⟩
  | ok a => exact absurd rfl (h a)

/-! ### Loops -/

/-- `s'` is reached from `s` by one `R`-step for each element of the list, in order. -/
inductive Chain (R : α → σ → σ → Prop) : List α → σ → σ → Prop where
  | nil (s : σ) : Chain R [] s s
  | cons {x : α} {xs : List α} {s t u : σ} : R x s t → Chain R xs t u → Chain R (x :: xs) s u

/-- A loop that returns ran a chain of whatever its body's successful runs satisfy. -/
theorem chain_of_foldlM {R : α → σ → σ → Prop} {f : σ → α → Except ε σ}
    (hR : ∀ x s s', f s x = .ok s' → R x s s') {xs : List α} {s s' : σ}
    (h : xs.foldlM f s = .ok s') : Chain R xs s s' := by
  induction xs generalizing s with
  | nil =>
    simp only [List.foldlM_nil, pure_eq_ok] at h
    rw [h]; exact Chain.nil s'
  -- the first step, and then the chain of the rest
  | cons x xs ih =>
    simp only [List.foldlM_cons, bind_eq_ok] at h
    obtain ⟨t, hx, hxs⟩ := h
    exact Chain.cons (hR x s t hx) (ih hxs)

/-- An assertion that every step keeps holds at the end of a chain. -/
theorem Chain.preserves {R : α → σ → σ → Prop} {I : σ → Prop} {xs : List α} {s s' : σ}
    (h : Chain R xs s s') (hI : ∀ x ∈ xs, ∀ t t', R x t t' → I t → I t') (hs : I s) : I s' := by
  induction h with
  | nil => exact hs
  | cons hx _ ih =>
    exact ih (fun y hy => hI y (List.mem_cons_of_mem _ hy)) (hI _ (by simp) _ _ hx hs)

/-- What every step relates reflexively and transitively, the whole chain relates. -/
theorem Chain.trans_of {R : α → σ → σ → Prop} {Q : σ → σ → Prop} {xs : List α} {s s' : σ}
    (h : Chain R xs s s') (hrefl : ∀ t, Q t t) (htrans : ∀ t u v, Q t u → Q u v → Q t v)
    (hQ : ∀ x ∈ xs, ∀ t t', R x t t' → Q t t') : Q s s' := by
  induction h with
  | nil => exact hrefl _
  | cons hx _ ih =>
    exact htrans _ _ _ (hQ _ (by simp) _ _ hx) (ih (fun y hy => hQ y (List.mem_cons_of_mem _ hy)))

/-- A `mapM` that returns ran its function on each element. -/
theorem forall₂_of_mapM {f : α → Except ε β} {xs : List α} {ys : List β}
    (h : xs.mapM f = .ok ys) : List.Forall₂ (fun x y => f x = .ok y) xs ys := by
  induction xs generalizing ys with
  | nil =>
    simp only [List.mapM_nil, pure_eq_ok] at h
    rw [← h]; exact List.Forall₂.nil
  | cons x xs ih =>
    simp only [List.mapM_cons, bind_eq_ok, pure_eq_ok] at h
    obtain ⟨y, hy, ys', hys, rfl⟩ := h
    exact List.Forall₂.cons hy (ih hys)

/-- A `mapM` whose function returns on each element is a `map`. -/
theorem mapM_eq_map {f : α → Except ε β} {g : α → β} {xs : List α}
    (h : ∀ x ∈ xs, f x = .ok (g x)) : xs.mapM f = .ok (xs.map g) := by
  induction xs with
  | nil => rfl
  | cons x xs ih =>
    have htail := ih (fun y hy => h y (List.mem_cons_of_mem _ hy))
    simp only [List.mapM_cons, bind_eq_ok, pure_eq_ok]
    exact ⟨g x, h x (List.mem_cons_self ..), xs.map g, htail, rfl⟩

/-- A `mapM` returns when its function returns on each element. -/
theorem mapM_ok {f : α → Except ε β} {xs : List α} (h : ∀ x ∈ xs, ∃ y, f x = .ok y) :
    ∃ ys, xs.mapM f = .ok ys := by
  induction xs with
  | nil => exact ⟨[], rfl⟩
  | cons x xs ih =>
    obtain ⟨y, hy⟩ := h x (by simp)
    obtain ⟨ys, hys⟩ := ih (fun z hz => h z (List.mem_cons_of_mem _ hz))
    refine ⟨y :: ys, ?_⟩
    simp only [List.mapM_cons, bind_eq_ok, pure_eq_ok]
    exact ⟨y, hy, ys, hys, rfl⟩

/-- Each element on the right has a partner on the left. -/
theorem forall₂_right {R : α → β → Prop} {xs : List α} {ys : List β} (h : List.Forall₂ R xs ys) :
    ∀ y ∈ ys, ∃ x ∈ xs, R x y := by
  induction h with
  | nil => exact fun y hy => absurd hy List.not_mem_nil
  | cons hxy _ ih =>
    refine List.forall_mem_cons.mpr ⟨⟨_, List.mem_cons_self .., hxy⟩, fun y hy => ?_⟩
    obtain ⟨x, hx, hR⟩ := ih y hy
    exact ⟨x, List.mem_cons_of_mem _ hx, hR⟩

/-- Each element on the left has a partner on the right. -/
theorem forall₂_left {R : α → β → Prop} {xs : List α} {ys : List β} (h : List.Forall₂ R xs ys) :
    ∀ x ∈ xs, ∃ y ∈ ys, R x y := by
  induction h with
  | nil => exact fun x hx => absurd hx List.not_mem_nil
  | cons hxy _ ih =>
    refine List.forall_mem_cons.mpr ⟨⟨_, List.mem_cons_self .., hxy⟩, fun x hx => ?_⟩
    obtain ⟨y, hy, hR⟩ := ih x hx
    exact ⟨y, List.mem_cons_of_mem _ hy, hR⟩

/-- Partners that agree on a value list the same values. -/
theorem map_eq_of_forall₂ {γ : Type} {R : α → β → Prop} {f : α → γ} {g : β → γ} {xs : List α}
    {ys : List β} (h : List.Forall₂ R xs ys) (hfg : ∀ x y, R x y → g y = f x) :
    ys.map g = xs.map f := by
  induction h with
  | nil => rfl
  | cons hxy _ ih => rw [List.map_cons, List.map_cons, ih, hfg _ _ hxy]

/-- What a `mapM` returned came from some element. -/
theorem exists_of_mem_mapM {f : α → Except ε β} {xs : List α} {ys : List β}
    (h : xs.mapM f = .ok ys) {y : β} (hy : y ∈ ys) : ∃ x ∈ xs, f x = .ok y :=
  forall₂_right (forall₂_of_mapM h) y hy

/-- A `mapM` returns only if its function returns on each element. -/
theorem returns_of_mapM {f : α → Except ε β} {xs : List α} {ys : List β}
    (h : xs.mapM f = .ok ys) : ∀ x ∈ xs, ∃ y, f x = .ok y := by
  intro x hx
  obtain ⟨y, -, hy⟩ := forall₂_left (forall₂_of_mapM h) x hx
  exact ⟨y, hy⟩

/-- A `mapM` over keyed entries gives entries with these keys. -/
theorem nodup_of_mapM {κ : Type} {f : α → Except ε β} {xs : List α} {ys : List β} {key : α → κ}
    {key' : β → κ} (h : xs.mapM f = .ok ys) (hkey : ∀ x y, f x = .ok y → key' y = key x)
    (hnd : (xs.map key).Nodup) : (ys.map key').Nodup := by
  rw [map_eq_of_forall₂ (forall₂_of_mapM h) hkey]
  exact hnd

/-- What a `mapM` returns is what its function returns on the elements. -/
theorem mem_mapM {f : α → Except ε β} {xs : List α} {ys : List β} (h : xs.mapM f = .ok ys)
    {y : β} : y ∈ ys ↔ ∃ x ∈ xs, f x = .ok y := by
  refine ⟨exists_of_mem_mapM h, ?_⟩
  rintro ⟨x, hx, hxy⟩
  have hall := forall₂_of_mapM h
  clear h
  -- by the pairing of the elements with what they returned
  induction hall with
  | nil => cases hx
  | cons hz _ ih =>
    rcases List.mem_cons.mp hx with rfl | hx
    · rw [hxy, Except.ok.injEq] at hz
      exact hz ▸ List.mem_cons_self ..
    · exact List.mem_cons_of_mem _ (ih hx)

/-- Whether a `mapM` returns does not depend on the order of the list. -/
theorem mapM_perm {f : α → Except ε β} {xs xs' : List α} {ys : List β} (hperm : xs'.Perm xs)
    (h : xs.mapM f = .ok ys) : ∃ ys', xs'.mapM f = .ok ys' :=
  mapM_ok (fun x hx => returns_of_mapM h x (hperm.mem_iff.mp hx))

end Fallible
