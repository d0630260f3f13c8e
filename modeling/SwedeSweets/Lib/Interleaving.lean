import SwedeSweets.Lib.Transition
import Mathlib.Logic.Function.Basic

namespace Interleaving

open Transition

/-!
# Interleaved workers over shared state

A `Pool` is a shared state `σ` and one local state `π` for each worker of an arbitrary
index type.  In one step either one worker moves, reading and writing the shared state
and its own local state (`Program.work`), or the environment moves (`Program.env`).

The proof rule is the one of Owicki and Gries, with the assertions as data (`Proof`): a
shared invariant and one assertion per worker about the shared state and its own local
state.  A worker's step must establish the invariant and its own next assertion; it must
not disturb the assertion of any other worker; and the environment must keep all of them.
`Proof.sound` concludes that all of them hold along every interleaving.

`Program.Alone` is a worker that is not interrupted; `Alone.run` is the run of the pool in
which it moves.
-/

variable {σ π ω : Type}

/-- What the workers and the environment may do. -/
structure Program (σ π ω : Type) where
  /-- Worker `w` moves from local state `p` to `p'` and the shared state from `s` to `s'`. -/
  work : ω → σ → π → σ → π → Prop
  /-- The environment moves the shared state. -/
  env : σ → σ → Prop

/-- The shared state and the local state of each worker. -/
structure Pool (σ π ω : Type) where
  shared : σ
  locals : ω → π

/-- Who moved: a worker, or the environment. -/
inductive Move (ω : Type) where
  | work (w : ω)
  | env

/-- One step of the interleaving semantics. -/
inductive Step [DecidableEq ω] (P : Program σ π ω) : Pool σ π ω → Move ω → Pool σ π ω → Prop where
  | work {s : Pool σ π ω} {w : ω} {σ' : σ} {p' : π} :
      P.work w s.shared (s.locals w) σ' p' →
      Step P s (.work w) ⟨σ', Function.update s.locals w p'⟩
  | env {s : Pool σ π ω} {σ' : σ} : P.env s.shared σ' → Step P s .env ⟨σ', s.locals⟩

/-- A worker moves from the state it is seen to be in. -/
theorem Step.work_of [DecidableEq ω] {P : Program σ π ω} {s : Pool σ π ω} {w : ω} {σ₁ σ' : σ}
    {p p' : π} (hσ : s.shared = σ₁) (hp : s.locals w = p) (h : P.work w σ₁ p σ' p') :
    Step P s (.work w) ⟨σ', Function.update s.locals w p'⟩ := by
  subst hσ hp
  exact Step.work h

/-- Worker `w` moves, any number of times, and nobody else does. -/
inductive Program.Alone (P : Program σ π ω) (w : ω) : σ → π → σ → π → Prop where
  | refl (s : σ) (p : π) : P.Alone w s p s p
  | step {s s' s'' : σ} {p p' p'' : π} :
      P.work w s p s' p' → P.Alone w s' p' s'' p'' → P.Alone w s p s'' p''

/-- Running alone and then running on alone. -/
theorem Program.Alone.trans {P : Program σ π ω} {w : ω} {s s' s'' : σ} {p p' p'' : π}
    (h : P.Alone w s p s' p') (h' : P.Alone w s' p' s'' p'') : P.Alone w s p s'' p'' := by
  induction h with
  | refl => exact h'
  | step hstep _ ih => exact .step hstep (ih h')

/-- What one worker does alone is a run of the pool. -/
theorem Program.Alone.run [DecidableEq ω] {P : Program σ π ω} {w : ω} {s s' : σ} {p p' : π}
    (h : P.Alone w s p s' p') (locals : ω → π) (hw : locals w = p) :
    ∃ ms, Run (Step P) ⟨s, locals⟩ ms ⟨s', Function.update locals w p'⟩ := by
  induction h generalizing locals with
  | refl s p =>
    rw [← hw, Function.update_eq_self]
    exact ⟨[], Run.nil _⟩
  | @step s s' s'' p p' p'' hstep _ ih =>
    obtain ⟨ms, hrun⟩ := ih (Function.update locals w p') (Function.update_self ..)
    -- only the last state of the worker counts
    rw [Function.update_idem] at hrun
    have hown : P.work w s (locals w) s' p' := hw ▸ hstep
    exact ⟨[.work w] ++ ms, (Run.single (Step.work hown)).append hrun⟩

/-- A shared invariant and worker assertions that no step disturbs. -/
structure Proof (P : Program σ π ω) where
  inv : σ → Prop
  assert : ω → π → σ → Prop
  own : ∀ {w s p s' p'}, inv s → assert w p s → P.work w s p s' p' → inv s' ∧ assert w p' s'
  frame : ∀ {w v s p q s' p'}, v ≠ w → inv s → assert w p s → assert v q s →
    P.work w s p s' p' → assert v q s'
  env : ∀ {s s'}, inv s → P.env s s' → inv s'
  envFrame : ∀ {v q s s'}, inv s → assert v q s → P.env s s' → assert v q s'

variable {P : Program σ π ω}

/-- The shared invariant and every worker's assertion hold. -/
def Proof.Holds (R : Proof P) (s : Pool σ π ω) : Prop :=
  R.inv s.shared ∧ ∀ w, R.assert w (s.locals w) s.shared

/-- One step keeps the invariant and all assertions. -/
theorem Proof.step [DecidableEq ω] (R : Proof P) {s t : Pool σ π ω} {m : Move ω}
    (h : R.Holds s) (hst : Step P s m t) : R.Holds t := by
  obtain ⟨hI, hA⟩ := h
  cases hst with
  | @work w σ' p' hw =>
    obtain ⟨hI', hA'⟩ := R.own hI (hA w) hw
    refine ⟨hI', fun v => ?_⟩
    -- the worker that moved, and the others
    by_cases hv : v = w
    · subst hv
      simpa using hA'
    · show R.assert v (Function.update s.locals w p' v) σ'
      rw [Function.update_of_ne hv]
      exact R.frame hv hI (hA w) (hA v) hw
  | env he => exact ⟨R.env hI he, fun v => R.envFrame hI (hA v) he⟩

/-- **Soundness.** The invariant and all assertions hold along every interleaving. -/
theorem Proof.sound [DecidableEq ω] (R : Proof P) {s t : Pool σ π ω} {ms : List (Move ω)}
    (h : Run (Step P) s ms t) (hs : R.Holds s) : R.Holds t :=
  h.invariant (fun _ _ _ hI hst => R.step hI hst) hs

end Interleaving
