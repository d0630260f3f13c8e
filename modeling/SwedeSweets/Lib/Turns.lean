import SwedeSweets.Lib.ReadCommitted
import Mathlib.Algebra.BigOperators.Group.Finset.Basic
import Mathlib.Data.Fintype.Basic

namespace ReadCommitted

open Transition Interleaving

/-!
# Transactions that take turns

A database may be guarded by one row, the *turn*; which row that is may depend on the database.
When every transaction takes the turn before it commits anything, what it does from then on is
what it would do alone, at the clocks it happens to read (`Tx.Outcome`).  So an invariant that
every transaction keeps on its own holds along every interleaving:

* `turns` — the discipline: whoever holds the turn finds the database as it left it;
* `safe_of_turn` — from the turn on, safety is a fact about `Tx.Outcome` alone;
* `log_of_signed` — when every transaction signs its commit, the log lists the workers that have
  committed, each of them once.
-/

variable {κ δ ε η ω α : Type}

/-! ### What a transaction does while nobody else commits -/

namespace Tx

/-- The transaction may leave the database `d'`, with its note, when nobody else commits
    meanwhile and it reads the clock at some of the `times`. -/
def Outcome (times : ℕ → Prop) : Tx κ δ ε η → δ → δ → List η → Prop
  | .clock k, d, d', note => ∃ now, times now ∧ Outcome times (k now) d d' note
  | .read k, d, d', note => Outcome times (k d) d d' note
  | .lock _ k, d, d', note => Outcome times (k d) d d' note
  | .claim _ free k c, d, d', note =>
      (free d = true ∧ Outcome times (k d) d d' note)
        ∨ (free d = false ∧ Outcome times c d d' note)
  | .write f k, d, d', note => Outcome times k (f d) d' note
  | .commit note, d, d', note' => d = d' ∧ note = note'
  | .raise _, _, _, _ => False

variable {times : ℕ → Prop} {d d' : δ} {note : List η}

/-- At one clock, the outcome is what `exec` computes. -/
theorem exec_eq_ok {now : ℕ} {t : Tx κ δ ε η} :
    t.exec now d = .ok (d', note) ↔ t.Outcome (· = now) d d' note := by
  induction t generalizing d with
  | clock k ih =>
    show (k now).exec now d = _ ↔ ∃ n, n = now ∧ (k n).Outcome (· = now) d d' note
    rw [ih now, exists_eq_left]
  | read k ih => exact ih d
  | lock r k ih => exact ih d
  | claim r free k c ihk ihc =>
    show (if free d = true then (k d).exec now d else c.exec now d) = _ ↔ _ ∨ _
    -- on its own, a claim goes through when the key is free
    by_cases h : free d = true
    · rw [if_pos h, ihk d]
      simp [h]
    · rw [if_neg h, ihc]
      simp [h]
  | write f k ih => exact ih
  | commit n =>
    show Except.ok (d, n) = Except.ok (d', note) ↔ d = d' ∧ n = note
    rw [Except.ok.injEq, Prod.mk.injEq]
  | raise e => exact ⟨fun h => (by cases h), False.elim⟩

/-- A computation that raises has no outcome. -/
theorem outcome_attempt {x : Except ε α} {k : α → Tx κ δ ε η} :
    (attempt x k).Outcome times d d' note ↔ ∃ a, x = .ok a ∧ (k a).Outcome times d d' note := by
  cases x with
  | ok a => simp [attempt]
  | error e => simp [attempt, Outcome]

/-- On its own, locking rows collects them and goes on. -/
theorem outcome_lockRows {collect : κ → δ → List α} {rs : List κ} {xs : List α}
    {k : List α → Tx κ δ ε η} :
    (lockRows collect rs xs k).Outcome times d d' note ↔
      (k (xs ++ rs.flatMap (fun r => collect r d))).Outcome times d d' note := by
  induction rs generalizing xs with
  | nil => simp [lockRows]
  | cons r rs ih =>
    show (lockRows collect rs (xs ++ collect r d) k).Outcome times d d' note ↔ _
    rw [ih, List.flatMap_cons, List.append_assoc]

end Tx

/-! ### The turn -/

section

variable [DecidableEq κ] [DecidableEq ω]

/-- **Taking turns.** While a worker holds the turn, the database and the log stay as they are. -/
def turns (turn : δ → κ) (P : δ → List η → Prop) : Discipline κ δ η ω where
  inv s := P s.db s.log
  rely w s t := s.locks (turn s.db) = some w →
    t.locks (turn s.db) = some w ∧ t.db = s.db ∧ t.log = s.log
  good _ _ := True
  refl _ _ h := ⟨h, rfl, rfl⟩
  trans {w s t u} hst htu h := by
    obtain ⟨hlocks, hdb, hlog⟩ := hst h
    rw [← hdb] at hlocks
    obtain ⟨hlocks', hdb', hlog'⟩ := htu hlocks
    rw [hdb] at hlocks'
    exact ⟨hlocks', hdb'.trans hdb, hlog'.trans hlog⟩
  tick hinv _ := ⟨hinv, fun _ h => ⟨h, rfl, rfl⟩⟩
  look hinv := ⟨hinv, fun _ _ h => ⟨h, rfl, rfl⟩⟩
  grab hinv hfree := ⟨hinv, fun _ _ h => ⟨(Store.locks_grab hfree ..).mpr (Or.inl h), rfl, rfl⟩⟩
  release hinv := ⟨hinv, fun _ hne h => ⟨(Store.locks_release ..).mpr ⟨h, hne⟩, rfl, rfl⟩⟩

variable {turn : δ → κ} {P : δ → List η → Prop} {w : ω}

omit [DecidableEq ω] in
/-- A worker that takes the row which is the turn has it. -/
theorem turn_of_grab {s : Store κ δ η ω} {r : κ} (hfree : s.Lockable w r) (hr : turn s.db = r) :
    (s.grab w r).locks (turn (s.grab w r).db) = some w :=
  (Store.locks_grab hfree w _).mpr (Or.inr ⟨rfl, hr⟩)

/-- **From the turn on.** A worker that has the turn is safe when what its transaction leaves
    behind on its own keeps the invariant. -/
theorem safe_of_turn {t : Tx κ δ ε η} {f : δ → δ} {s : Store κ δ η ω}
    (hturn : s.locks (turn s.db) = some w)
    (hkeeps : ∀ d' note, t.Outcome (fun _ => True) (f s.db) d' note → P d' (s.log ++ note)) :
    (turns turn P).Safe w t f s := by
  induction t generalizing f s with
  | clock k ih =>
    intro u hu
    -- while `w` has the turn, nobody else commits, so nothing it reads has changed
    obtain ⟨hlocks, hdb, hlog⟩ := hu.rely hturn
    refine ih u.clock (s := u.look w) ?_ (fun d' note h => ?_)
    · show u.locks (turn u.db) = some w
      rw [hdb, hlocks]
    · show P d' (u.log ++ note)
      rw [hlog]
      have h : (k u.clock).Outcome (fun _ => True) (f u.db) d' note := h
      rw [hdb] at h
      exact hkeeps d' note ⟨u.clock, trivial, h⟩
  | read k ih =>
    intro u hu
    obtain ⟨hlocks, hdb, hlog⟩ := hu.rely hturn
    refine ih (f u.db) (by rw [hdb, hlocks]) (fun d' note h => ?_)
    rw [hdb] at h
    rw [hlog]
    exact hkeeps d' note h
  | lock r k ih =>
    intro u hu hfree
    obtain ⟨hlocks, hdb, hlog⟩ := hu.rely hturn
    refine ih (f u.db) (s := u.grab w r) ?_ (fun d' note h => ?_)
    · exact (Store.locks_grab hfree w _).mpr (Or.inl (by rw [← hlocks, ← hdb]; rfl))
    · show P d' (u.log ++ note)
      have h : (k (f u.db)).Outcome (fun _ => True) (f u.db) d' note := h
      rw [hdb] at h
      rw [hlog]
      exact hkeeps d' note h
  | claim r free k c ihk ihc =>
    intro u hu hfree
    obtain ⟨hlocks, hdb, hlog⟩ := hu.rely hturn
    refine ⟨fun htrue => ?_, fun hfalse => ?_⟩
    · refine ihk (f u.db) (s := u.grab w r) ?_ (fun d' note h => ?_)
      · exact (Store.locks_grab hfree w _).mpr (Or.inl (by rw [← hlocks, ← hdb]; rfl))
      · show P d' (u.log ++ note)
        have h : (k (f u.db)).Outcome (fun _ => True) (f u.db) d' note := h
        rw [hdb] at h htrue
        rw [hlog]
        exact hkeeps d' note (Or.inl ⟨htrue, h⟩)
    · refine ihc (by rw [hdb, hlocks]) (fun d' note h => ?_)
      rw [hdb] at h hfalse
      rw [hlog]
      exact hkeeps d' note (Or.inr ⟨hfalse, h⟩)
  | write g k ih =>
    intro u hu
    obtain ⟨hlocks, hdb, hlog⟩ := hu.rely hturn
    refine ih (f := g ∘ f) (by rw [hdb, hlocks]) (fun d' note h => ?_)
    rw [hdb] at h
    rw [hlog]
    exact hkeeps d' note h
  | commit note =>
    intro u hu
    obtain ⟨hlocks, hdb, hlog⟩ := hu.rely hturn
    refine ⟨?_, fun v hv h => ?_⟩
    · show P (f u.db) (u.log ++ note)
      rw [hdb, hlog]
      exact hkeeps _ _ ⟨rfl, rfl⟩
    · -- nobody else has the turn
      rw [hdb, hlocks] at h
      exact absurd (Option.some.inj h).symm hv
  | raise e => trivial

/-- A transaction that begins by taking the turn, whatever the database is. -/
theorem safe_of_lock {r : κ} {k : δ → Tx κ δ ε η} {s : Store κ δ η ω} (hr : ∀ d, turn d = r)
    (hkeeps : ∀ d log d' note, P d log → (k d).Outcome (fun _ => True) d d' note →
      P d' (log ++ note)) : (turns turn P).Safe w (.lock r k) id s := by
  intro u hu hfree
  exact safe_of_turn (turn_of_grab hfree (hr u.db)) (fun d' note h => hkeeps _ _ _ _ hu.inv h)

/-- **Soundness.** Along every interleaving, the invariant holds. -/
theorem turns_sound {tx : ω → Tx κ δ ε η} {s t : Pool (Store κ δ η ω) (Progress κ δ ε η) ω}
    {ms : List (Move ω)} (h : Run (Step (transactions κ δ ε η ω)) s ms t)
    (hstart : P s.shared.db s.shared.log) (hlocals : ∀ w, s.locals w = .running id (tx w))
    (hsafe : ∀ w, (turns turn P).Safe w (tx w) id s.shared) : P t.shared.db t.shared.log := by
  have hrun : Run (fun s m t => MoveOk (turns turn P).good s m
      ∧ Step (transactions κ δ ε η ω) s m t) s ms t :=
    h.mono (fun m _ s t hst => ⟨by cases m <;> trivial, hst⟩)
  exact Discipline.sound (D := turns turn P) hrun hstart hlocals hsafe

/-! ### Signed commits -/

/-- Every commit of the transaction notes the worker. -/
def Tx.Signs (w : ω) : Tx κ δ ε ω → Prop
  | .clock k => ∀ now, Signs w (k now)
  | .read k => ∀ d, Signs w (k d)
  | .lock _ k => ∀ d, Signs w (k d)
  | .claim _ _ k c => (∀ d, Signs w (k d)) ∧ Signs w c
  | .write _ k => Signs w k
  | .commit note => note = [w]
  | .raise _ => True

omit [DecidableEq κ] [DecidableEq ω] in
/-- A computation that may raise signs what follows it. -/
theorem Tx.signs_attempt {x : Except ε α} {k : α → Tx κ δ ε ω} (h : ∀ a, (k a).Signs w) :
    (Tx.attempt x k).Signs w := by
  cases x with
  | ok a => exact h a
  | error e => trivial

omit [DecidableEq κ] [DecidableEq ω] in
/-- Locking rows signs what follows it. -/
theorem Tx.signs_lockRows {collect : κ → δ → List α} {k : List α → Tx κ δ ε ω}
    (h : ∀ xs, (k xs).Signs w) (rs : List κ) (xs : List α) :
    (Tx.lockRows collect rs xs k).Signs w := by
  induction rs generalizing xs with
  | nil => exact h xs
  | cons r rs ih => exact fun d => ih (xs ++ collect r d)

/-- The log lists the workers that have committed, and what still runs will sign. -/
structure Signed (s : Pool (Store κ δ ω ω) (Progress κ δ ε ω) ω) : Prop where
  nodup : s.shared.log.Nodup
  mem : ∀ w, w ∈ s.shared.log ↔ s.locals w = .committed
  signs : ∀ w f t, s.locals w = .running f t → t.Signs w

/-- One statement of a worker that signs. -/
theorem Signed.statement {w : ω} {s s' : Store κ δ ω ω} {p p' : Progress κ δ ε ω}
    (hsigns : ∀ f t, p = .running f t → t.Signs w) (hst : Progress.Step w s p s' p') :
    ((s'.log = s.log ∧ p' ≠ .committed) ∨ (s'.log = s.log ++ [w] ∧ p' = .committed))
      ∧ p ≠ .committed ∧ ∀ f t, p' = .running f t → t.Signs w := by
  cases hst with
  | clock => exact ⟨Or.inl ⟨rfl, by simp⟩, by simp, by rintro f t ⟨⟩; exact hsigns _ _ rfl _⟩
  | read => exact ⟨Or.inl ⟨rfl, by simp⟩, by simp, by rintro f t ⟨⟩; exact hsigns _ _ rfl _⟩
  | lock => exact ⟨Or.inl ⟨rfl, by simp⟩, by simp, by rintro f t ⟨⟩; exact hsigns _ _ rfl _⟩
  | claim =>
    exact ⟨Or.inl ⟨rfl, by simp⟩, by simp, by rintro f t ⟨⟩; exact (hsigns _ _ rfl).1 _⟩
  | conflict =>
    exact ⟨Or.inl ⟨rfl, by simp⟩, by simp, by rintro f t ⟨⟩; exact (hsigns _ _ rfl).2⟩
  | write =>
    have hrest := hsigns _ _ rfl
    exact ⟨Or.inl ⟨rfl, by simp⟩, by simp, by rintro f t ⟨⟩; exact hrest⟩
  -- only a commit writes to the log, and it signs for its worker
  | @commit f note =>
    have hnote : note = [w] := hsigns _ _ rfl
    subst hnote
    exact ⟨Or.inr ⟨rfl, rfl⟩, by simp, by rintro f t ⟨⟩⟩
  | raise => exact ⟨Or.inl ⟨rfl, by simp⟩, by simp, by rintro f t ⟨⟩⟩
  | abort => exact ⟨Or.inl ⟨rfl, by simp⟩, by simp, by rintro f t ⟨⟩⟩

/-- One step keeps the log signed. -/
theorem Signed.step {s t : Pool (Store κ δ ω ω) (Progress κ δ ε ω) ω} {m : Move ω}
    (h : Signed s) (hst : Step (transactions κ δ ε ω ω) s m t) : Signed t := by
  cases hst with
  | env he =>
    obtain ⟨later, -, rfl⟩ := he
    exact ⟨h.nodup, h.mem, h.signs⟩
  | @work w s' p' hw =>
    obtain ⟨hlog, hnew, hsigns⟩ := Signed.statement (h.signs w) hw
    have hout : w ∉ s.shared.log := fun hmem => hnew ((h.mem w).mp hmem)
    have hself : Function.update s.locals w p' w = p' := Function.update_self ..
    have hother : ∀ v, v ≠ w → Function.update s.locals w p' v = s.locals v :=
      fun v hv => Function.update_of_ne hv ..
    refine ⟨?_, fun v => ?_, fun v f t hv => ?_⟩
    · show s'.log.Nodup
      rcases hlog with ⟨hlog, -⟩ | ⟨hlog, -⟩
      · rw [hlog]
        exact h.nodup
      · rw [hlog, List.nodup_append]
        exact ⟨h.nodup, by simp,
          fun a ha b hb hab => hout (List.mem_singleton.mp hb ▸ hab ▸ ha)⟩
    -- only the worker that moved can have signed
    · show v ∈ s'.log ↔ Function.update s.locals w p' v = .committed
      by_cases hv : v = w
      · subst hv
        rw [hself]
        rcases hlog with ⟨hlog, hp⟩ | ⟨hlog, hp⟩
        · rw [hlog]
          exact ⟨fun hmem => absurd hmem hout, fun hc => absurd hc hp⟩
        · simp [hlog, hp]
      · rw [hother v hv, ← h.mem v]
        rcases hlog with ⟨hlog, -⟩ | ⟨hlog, -⟩ <;> simp [hlog, hv]
    · by_cases hvw : v = w
      · subst hvw
        exact hsigns f t (hself.symm.trans hv)
      · exact h.signs v f t ((hother v hvw).symm.trans hv)

/-- **Signed commits.** When every transaction signs, the log lists the workers that have
    committed, each of them once. -/
theorem log_of_signed {tx : ω → Tx κ δ ε ω} {s t : Pool (Store κ δ ω ω) (Progress κ δ ε ω) ω}
    {ms : List (Move ω)} (h : Run (Step (transactions κ δ ε ω ω)) s ms t)
    (hempty : s.shared.log = []) (hlocals : ∀ w, s.locals w = .running id (tx w))
    (hsigns : ∀ w, (tx w).Signs w) :
    t.shared.log.Nodup ∧ ∀ w, w ∈ t.shared.log ↔ t.locals w = .committed := by
  have hstart : Signed s := by
    refine ⟨by rw [hempty]; exact List.nodup_nil, fun w => ?_, fun w f t hw => ?_⟩
    · rw [hempty, hlocals w]
      simp
    · rw [hlocals w, Progress.running.injEq] at hw
      exact hw.2 ▸ hsigns w
  have hsigned : Signed t := h.invariant (fun _ _ _ hu hst => hu.step hst) hstart
  exact ⟨hsigned.nodup, hsigned.mem⟩

omit [DecidableEq κ] in
/-- A sum over the log is a sum over the workers that have committed. -/
theorem sum_log [Fintype ω] {M : Type} [AddCommMonoid M] {log : List ω}
    {locals : ω → Progress κ δ ε ω} (hnd : log.Nodup) (hmem : ∀ w, w ∈ log ↔ locals w = .committed)
    (f : ω → M) : (log.map f).sum = ∑ w with (locals w).isCommitted = true, f w := by
  rw [← List.sum_toFinset f hnd]
  refine Finset.sum_congr (Finset.ext (fun w => ?_)) (fun _ _ => rfl)
  simp [hmem w, Progress.isCommitted_iff]

end

end ReadCommitted
