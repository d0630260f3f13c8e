import SwedeSweets.Lib.Fallible
import SwedeSweets.Lib.Interleaving

namespace ReadCommitted

open Transition Interleaving

/-!
# Transactions under READ COMMITTED

A transaction (`Tx`) is a program of statements over a database `δ` whose rows `κ` can be
locked: it reads the clock, reads the database, locks a row, claims a key of a unique index,
writes, and in the end commits or raises.  Each worker runs one transaction, and `transactions`
interleaves them statement by statement:

* a statement sees what was last committed, with the writes of its own transaction on top;
* a lock waits until the row is free and is held until the transaction ends, and what is
  read with it is what was last committed by then;
* a claim waits in the same way; then the key is taken if it is still free, and held until the
  transaction ends, or the claim fails and leaves nothing behind;
* writes reach the database at the commit, which also appends a note to the `log`;
* between any two statements the clock may advance, and a transaction may be aborted.

`Tx.exec` is a transaction as a function, when it is not interrupted (`alone_exec`).

The proof rule is rely-guarantee.  A `Discipline` is an invariant and, for each worker, a
transitive relation that bounds what the others may do.  `Discipline.Safe` is the weakest
precondition of a transaction under that interference: its commit must keep the invariant
and what the others rely on.  `Discipline.sound` concludes that the invariant holds along
every interleaving.
-/

variable {κ δ ε η ω α β : Type}

/-! ### Transactions -/

/-- A transaction, statement by statement. -/
inductive Tx (κ δ ε η : Type) where
  | clock (k : ℕ → Tx κ δ ε η)
  | read (k : δ → Tx κ δ ε η)
  | lock (r : κ) (k : δ → Tx κ δ ε η)
  | claim (r : κ) (free : δ → Bool) (k : δ → Tx κ δ ε η) (conflict : Tx κ δ ε η)
  | write (f : δ → δ) (k : Tx κ δ ε η)
  | commit (note : List η)
  | raise (e : ε)

namespace Tx

/-- Go on with the value, or raise. -/
def attempt (x : Except ε α) (k : α → Tx κ δ ε η) : Tx κ δ ε η :=
  match x with
  | .ok a => k a
  | .error e => .raise e

/-- Lock rows one after the other, and collect what is read with each lock. -/
def lockRows (collect : κ → δ → List α) : List κ → List α → (List α → Tx κ δ ε η) → Tx κ δ ε η
  | [], xs, k => k xs
  | r :: rs, xs, k => .lock r (fun d => lockRows collect rs (xs ++ collect r d) k)

/-- Run a transaction inside another one (a nested `atomic` block), with other names for its rows
    and errors: instead of committing, it goes on. -/
def within {κ' ε' η' : Type} (row : κ → κ') (err : ε → ε') :
    Tx κ δ ε η → Tx κ' δ ε' η' → Tx κ' δ ε' η'
  | .clock k, rest => .clock fun now => within row err (k now) rest
  | .read k, rest => .read fun d => within row err (k d) rest
  | .lock r k, rest => .lock (row r) fun d => within row err (k d) rest
  | .claim r free k c, rest =>
      .claim (row r) free (fun d => within row err (k d) rest) (within row err c rest)
  | .write f k, rest => .write f (within row err k rest)
  | .commit _, rest => rest
  | .raise e, _ => .raise (err e)

/-- The transaction on its own, at one clock: the database it leaves and its note. -/
def exec (now : ℕ) : Tx κ δ ε η → δ → Except ε (δ × List η)
  | .clock k, d => exec now (k now) d
  | .read k, d => exec now (k d) d
  | .lock _ k, d => exec now (k d) d
  | .claim _ free k conflict, d => if free d = true then exec now (k d) d else exec now conflict d
  | .write f k, d => exec now k (f d)
  | .commit note, d => .ok (d, note)
  | .raise e, _ => .error e

/-- On its own, the transaction leaves the database `d'`. -/
def Ends (t : Tx κ δ ε η) (now : ℕ) (d d' : δ) : Prop := ∃ note, t.exec now d = .ok (d', note)

/-- A computation that may raise, and what follows it. -/
@[simp] theorem exec_attempt (now : ℕ) (x : Except ε α) (k : α → Tx κ δ ε η) (d : δ) :
    (attempt x k).exec now d = x >>= fun a => (k a).exec now d := by
  cases x <;> rfl

/-- On its own, locking rows collects them and goes on. -/
@[simp] theorem exec_lockRows (now : ℕ) (collect : κ → δ → List α) (rs : List κ) (xs : List α)
    (k : List α → Tx κ δ ε η) (d : δ) :
    (lockRows collect rs xs k).exec now d
      = (k (xs ++ rs.flatMap (fun r => collect r d))).exec now d := by
  induction rs generalizing xs with
  | nil => simp [lockRows]
  | cons r rs ih =>
    show (lockRows collect rs (xs ++ collect r d) k).exec now d = _
    rw [ih, List.flatMap_cons, List.append_assoc]

/-- A nested transaction ends, and what follows runs from there. -/
theorem ends_within {κ' ε' η' : Type} {row : κ → κ'} {err : ε → ε'} {t : Tx κ δ ε η}
    {rest : Tx κ' δ ε' η'} {now : ℕ} {d d' : δ} :
    (within row err t rest).Ends now d d' ↔ ∃ d₁, t.Ends now d d₁ ∧ rest.Ends now d₁ d' := by
  unfold Ends
  -- by the statements of the nested transaction
  induction t generalizing d with
  | clock k ih => exact ih now
  | read k ih => exact ih d
  | lock r k ih => exact ih d
  | claim r free k c ihk ihc =>
    simp only [within, exec]
    by_cases h : free d = true
    · simp only [if_pos h]
      exact ihk d
    · simp only [if_neg h]
      exact ihc
  | write f k ih => exact ih
  | commit note => simp [within, exec]
  | raise e => simp [within, exec]

/-- A transaction that goes on with a value ends when there is one. -/
theorem ends_attempt {x : Except ε α} {k : α → Tx κ δ ε η} {now : ℕ} {d d' : δ} :
    (attempt x k).Ends now d d' ↔ ∃ a, x = .ok a ∧ (k a).Ends now d d' := by
  unfold Ends
  cases x with
  | ok a => simp [attempt]
  | error e => simp [attempt, exec]

end Tx

/-! ### Interleaving transactions -/

/-- The clock, the committed database, who holds which row, the first clock each running
    transaction has read, and the notes of the committed transactions. -/
structure Store (κ δ η ω : Type) where
  clock : ℕ
  db : δ
  locks : κ → Option ω
  since : ω → Option ℕ
  log : List η

/-- A running transaction, with the writes it has made so far, or how it ended. -/
inductive Progress (κ δ ε η : Type) where
  | running (written : δ → δ) (rest : Tx κ δ ε η)
  | committed
  | raised (e : ε)
  | aborted

section

variable [DecidableEq κ] [DecidableEq ω]

namespace Store

/-- A row that `w` need not wait for. -/
def Lockable (s : Store κ δ η ω) (w : ω) (r : κ) : Prop :=
  s.locks r = none ∨ s.locks r = some w

instance (s : Store κ δ η ω) (w : ω) (r : κ) : Decidable (s.Lockable w r) := by
  unfold Lockable; infer_instance

/-- Worker `w` reads the clock. -/
def look (s : Store κ δ η ω) (w : ω) : Store κ δ η ω :=
  { s with since := Function.update s.since w (some ((s.since w).getD s.clock)) }

/-- Worker `w` takes a row. -/
def grab (s : Store κ δ η ω) (w : ω) (r : κ) : Store κ δ η ω :=
  { s with locks := Function.update s.locks r (some w) }

/-- The transaction of worker `w` ends. -/
def release (s : Store κ δ η ω) (w : ω) : Store κ δ η ω :=
  { s with
    locks := fun r => if s.locks r = some w then none else s.locks r
    since := Function.update s.since w none }

/-- Worker `w` commits what it has written. -/
def commit (s : Store κ δ η ω) (w : ω) (written : δ → δ) (note : List η) : Store κ δ η ω :=
  { s.release w with db := written s.db, log := s.log ++ note }

/-- The clock advances. -/
def tick (s : Store κ δ η ω) (later : ℕ) : Store κ δ η ω := { s with clock := later }

end Store

/-- One statement of worker `w`. -/
inductive Progress.Step (w : ω) : Store κ δ η ω → Progress κ δ ε η → Store κ δ η ω →
    Progress κ δ ε η → Prop where
  | clock {s : Store κ δ η ω} {f : δ → δ} {k : ℕ → Tx κ δ ε η} :
      Step w s (.running f (.clock k)) (s.look w) (.running f (k s.clock))
  | read {s : Store κ δ η ω} {f : δ → δ} {k : δ → Tx κ δ ε η} :
      Step w s (.running f (.read k)) s (.running f (k (f s.db)))
  | lock {s : Store κ δ η ω} {f : δ → δ} {r : κ} {k : δ → Tx κ δ ε η} :
      s.Lockable w r →
      Step w s (.running f (.lock r k)) (s.grab w r) (.running f (k (f s.db)))
  | claim {s : Store κ δ η ω} {f : δ → δ} {r : κ} {free : δ → Bool} {k : δ → Tx κ δ ε η}
      {t : Tx κ δ ε η} :
      s.Lockable w r → free (f s.db) = true →
      Step w s (.running f (.claim r free k t)) (s.grab w r) (.running f (k (f s.db)))
  | conflict {s : Store κ δ η ω} {f : δ → δ} {r : κ} {free : δ → Bool} {k : δ → Tx κ δ ε η}
      {t : Tx κ δ ε η} :
      s.Lockable w r → free (f s.db) = false →
      Step w s (.running f (.claim r free k t)) s (.running f t)
  | write {s : Store κ δ η ω} {f g : δ → δ} {k : Tx κ δ ε η} :
      Step w s (.running f (.write g k)) s (.running (g ∘ f) k)
  | commit {s : Store κ δ η ω} {f : δ → δ} {note : List η} :
      Step w s (.running f (.commit note)) (s.commit w f note) .committed
  | raise {s : Store κ δ η ω} {f : δ → δ} {e : ε} :
      Step w s (.running f (.raise e)) (s.release w) (.raised e)
  | abort {s : Store κ δ η ω} {f : δ → δ} {t : Tx κ δ ε η} :
      Step w s (.running f t) (s.release w) .aborted

variable (κ δ ε η ω) in
/-- The transactions of all workers, and the clock. -/
def transactions : Program (Store κ δ η ω) (Progress κ δ ε η) ω where
  work := Progress.Step
  env s t := ∃ later, s.clock ≤ later ∧ t = s.tick later

omit [DecidableEq ω] in
/-- Whoever need not wait need not wait after taking a row. -/
theorem Store.lockable_grab {s : Store κ δ η ω} {w : ω} (hfree : ∀ r, s.Lockable w r) (r : κ) :
    ∀ r', (s.grab w r).Lockable w r' := by
  intro r'
  by_cases hr : r' = r
  · subst hr
    exact Or.inr (Function.update_self ..)
  · show Function.update s.locks r (some w) r' = none ∨ Function.update s.locks r (some w) r' = _
    rw [Function.update_of_ne hr]
    exact hfree r'

omit [DecidableEq ω] in
/-- Who holds what after `w` takes a row that was free or its own. -/
theorem Store.locks_grab {s : Store κ δ η ω} {w : ω} {r : κ} (hfree : s.Lockable w r) (v : ω)
    (x : κ) : (s.grab w r).locks x = some v ↔ s.locks x = some v ∨ (v = w ∧ x = r) := by
  show Function.update s.locks r (some w) x = some v ↔ _
  by_cases hx : x = r
  · subst hx
    rw [Function.update_self, Option.some.injEq]
    rcases hfree with hnone | hmine
    · simp [hnone, eq_comm]
    · simp [hmine, eq_comm]
  · rw [Function.update_of_ne hx]
    simp [hx]

omit [DecidableEq κ] in
/-- The others hold what they held when `w` ends, and `w` holds nothing. -/
theorem Store.locks_release {s : Store κ δ η ω} {w : ω} (v : ω) (x : κ) :
    (s.release w).locks x = some v ↔ s.locks x = some v ∧ v ≠ w := by
  show (if s.locks x = some w then none else s.locks x) = some v ↔ _
  split
  · next hw => simp [hw, eq_comm]
  · next hw =>
    refine ⟨fun hv => ⟨hv, ?_⟩, fun hv => hv.1⟩
    rintro rfl
    exact hw hv

/-- **Alone.** A transaction that is not interrupted, and for which no row is locked by
    another, does what `exec` computes. -/
theorem alone_exec {t : Tx κ δ ε η} {s : Store κ δ η ω} {w : ω} {f : δ → δ}
    (hfree : ∀ r, s.Lockable w r) {d : δ} {note : List η}
    (h : t.exec s.clock (f s.db) = .ok (d, note)) :
    ∃ s', (transactions κ δ ε η ω).Alone w s (.running f t) s' .committed
      ∧ s'.clock = s.clock ∧ s'.db = d ∧ s'.log = s.log ++ note
      ∧ ∀ r, s'.locks r = none := by
  -- statement by statement, with no lock held by anybody else
  induction t generalizing s f with
  | clock k ih =>
    obtain ⟨s', halone, hs'⟩ := ih s.clock (s := s.look w) hfree h
    exact ⟨s', .step .clock halone, hs'⟩
  | read k ih =>
    obtain ⟨s', halone, hs'⟩ := ih _ hfree h
    exact ⟨s', .step .read halone, hs'⟩
  | lock r k ih =>
    obtain ⟨s', halone, hs'⟩ := ih _ (s := s.grab w r) (Store.lockable_grab hfree r) h
    exact ⟨s', .step (.lock (hfree r)) halone, hs'⟩
  | claim r free k t ihk iht =>
    have h : (if free (f s.db) = true then (k (f s.db)).exec s.clock (f s.db)
      else t.exec s.clock (f s.db)) = .ok (d, note) := h
    split at h
    · next htrue =>
      obtain ⟨s', halone, hs'⟩ := ihk _ (s := s.grab w r) (Store.lockable_grab hfree r) h
      exact ⟨s', .step (.claim (hfree r) htrue) halone, hs'⟩
    · next hfalse =>
      obtain ⟨s', halone, hs'⟩ := iht hfree h
      exact ⟨s', .step (.conflict (hfree r) (Bool.not_eq_true _ ▸ hfalse)) halone, hs'⟩
  | write g k ih =>
    obtain ⟨s', halone, hs'⟩ := ih (f := g ∘ f) hfree h
    exact ⟨s', .step .write halone, hs'⟩
  | commit note' =>
    obtain ⟨rfl, rfl⟩ := Prod.mk.inj (Except.ok.inj h)
    refine ⟨_, .step .commit (.refl _ _), rfl, rfl, rfl, fun r => ?_⟩
    show (if s.locks r = some w then none else s.locks r) = none
    rcases hfree r with hr | hr <;> simp [hr]
  | raise e => cases h

/-! ### Playing a schedule -/

/-- The next statement of worker `w`, when it does not have to wait. -/
def Progress.next (w : ω) (s : Store κ δ η ω) :
    Progress κ δ ε η → Option (Store κ δ η ω × Progress κ δ ε η)
  | .running f (.clock k) => some (s.look w, .running f (k s.clock))
  | .running f (.read k) => some (s, .running f (k (f s.db)))
  | .running f (.lock r k) =>
      if s.Lockable w r then some (s.grab w r, .running f (k (f s.db))) else none
  | .running f (.claim r free k t) =>
      if s.Lockable w r then
        if free (f s.db) = true then some (s.grab w r, .running f (k (f s.db)))
        else some (s, .running f t)
      else none
  | .running f (.write g k) => some (s, .running (g ∘ f) k)
  | .running f (.commit note) => some (s.commit w f note, .committed)
  | .running _ (.raise e) => some (s.release w, .raised e)
  | .committed | .raised _ | .aborted => none

/-- What is computed as the next state is a step. -/
theorem Progress.step_of_next {w : ω} {s s' : Store κ δ η ω} {p p' : Progress κ δ ε η}
    (h : p.next w s = some (s', p')) : Progress.Step w s p s' p' := by
  cases p with
  | running f t =>
    cases t with
    | lock r k =>
      have h : (if s.Lockable w r then some (s.grab w r, .running f (k (f s.db))) else none)
        = some (s', p') := h
      split at h
      · next hfree =>
        cases h
        exact .lock hfree
      · cases h
    | claim r free k t =>
      have h : (if s.Lockable w r then
          if free (f s.db) = true then some (s.grab w r, .running f (k (f s.db)))
          else some (s, .running f t)
        else none) = some (s', p') := h
      split at h
      · next hfree =>
        split at h
        · next htrue =>
          cases h
          exact .claim hfree htrue
        · next hfalse =>
          cases h
          exact .conflict hfree (Bool.not_eq_true _ ▸ hfalse)
      · cases h
    | clock | read | write | commit | raise => cases h; constructor
  | committed | raised | aborted => cases h

/-- Whether the transaction has committed. -/
def Progress.isCommitted : Progress κ δ ε η → Bool
  | .committed => true
  | .running _ _ | .raised _ | .aborted => false

omit [DecidableEq κ] [DecidableEq ω] in
/-- A worker has committed when it says so. -/
theorem Progress.isCommitted_iff {p : Progress κ δ ε η} : p.isCommitted = true ↔ p = .committed := by
  cases p <;> simp [isCommitted]

/-- The schedule of a run: whose statement is next, or a time to advance to. -/
inductive Slot (ω : Type) where
  | work (w : ω)
  | tick (later : ℕ)

/-- Play a schedule, as long as `good` allows the next statement. -/
def play (good : ω → Store κ δ η ω → Bool) :
    List (Slot ω) → Pool (Store κ δ η ω) (Progress κ δ ε η) ω →
      Option (Pool (Store κ δ η ω) (Progress κ δ ε η) ω)
  | [], s => some s
  | .work w :: slots, s =>
      if good w s.shared then
        match (s.locals w).next w s.shared with
        | some (shared, p) => play good slots ⟨shared, Function.update s.locals w p⟩
        | none => none
      else none
  | .tick later :: slots, s =>
      if s.shared.clock ≤ later then play good slots ⟨s.shared.tick later, s.locals⟩ else none

/-- Worker `w` may move here. -/
def MoveOk (good : ω → Store κ δ η ω → Prop) (s : Pool (Store κ δ η ω) (Progress κ δ ε η) ω) :
    Move ω → Prop
  | .work w => good w s.shared
  | .env => True

/-- A schedule that can be played is a run, to a state of which `p` can be computed. -/
theorem run_of_play {good : ω → Store κ δ η ω → Bool} (good' : ω → Store κ δ η ω → Prop)
    (hgood : ∀ w s, good w s = true → good' w s) {slots : List (Slot ω)}
    {s : Pool (Store κ δ η ω) (Progress κ δ ε η) ω}
    {p : Pool (Store κ δ η ω) (Progress κ δ ε η) ω → Bool}
    (h : (play good slots s).any p = true) :
    ∃ t ms, Run (fun s m t => MoveOk good' s m ∧ Step (transactions κ δ ε η ω) s m t) s ms t
      ∧ p t = true := by
  induction slots generalizing s with
  | nil => exact ⟨s, [], .nil _, h⟩
  | cons slot slots ih =>
    cases slot with
    | work w =>
      unfold play at h
      split at h
      -- the next statement of the worker
      · next hok =>
        split at h
        · next shared p' hnext =>
          obtain ⟨t, ms, hrun, hp⟩ := ih h
          have hstep : MoveOk good' s (.work w) ∧ Step (transactions κ δ ε η ω) s (.work w) _ :=
            ⟨hgood w _ hok, Step.work (Progress.step_of_next hnext)⟩
          exact ⟨t, _, (Run.single hstep).append hrun, hp⟩
        · cases h
      · cases h
    | tick later =>
      unfold play at h
      split at h
      -- the clock moves on
      · next hle =>
        obtain ⟨t, ms, hrun, hp⟩ := ih h
        have hstep : MoveOk good' s .env ∧ Step (transactions κ δ ε η ω) s .env _ :=
          ⟨trivial, Step.env ⟨later, hle, rfl⟩⟩
        exact ⟨t, _, (Run.single hstep).append hrun, hp⟩
      · cases h

/-! ### Rely and guarantee -/

variable (κ δ η ω) in
/-- An invariant, what each worker may rely on the others to keep, and when a worker may move. -/
structure Discipline where
  inv : Store κ δ η ω → Prop
  rely : ω → Store κ δ η ω → Store κ δ η ω → Prop
  good : ω → Store κ δ η ω → Prop
  refl : ∀ w s, rely w s s
  trans : ∀ {w s t u}, rely w s t → rely w t u → rely w s u
  tick : ∀ {s later}, inv s → s.clock ≤ later →
    inv (s.tick later) ∧ ∀ w, rely w s (s.tick later)
  look : ∀ {s v}, inv s → inv (s.look v) ∧ ∀ w, w ≠ v → rely w s (s.look v)
  grab : ∀ {s v r}, inv s → s.Lockable v r →
    inv (s.grab v r) ∧ ∀ w, w ≠ v → rely w s (s.grab v r)
  release : ∀ {s v}, inv s → inv (s.release v) ∧ ∀ w, w ≠ v → rely w s (s.release v)

namespace Discipline

variable (D : Discipline κ δ η ω)

/-- A state that worker `w` may find when it moves next. -/
structure Finds (w : ω) (s t : Store κ δ η ω) : Prop where
  rely : D.rely w s t
  inv : D.inv t
  good : D.good w t

/-- The rest of a transaction, run among the others, keeps the invariant and what the others
    rely on. -/
def Safe (w : ω) : Tx κ δ ε η → (δ → δ) → Store κ δ η ω → Prop
  | .clock k, f, s => ∀ t, D.Finds w s t → Safe w (k t.clock) f (t.look w)
  | .read k, f, s => ∀ t, D.Finds w s t → Safe w (k (f t.db)) f t
  | .lock r k, f, s => ∀ t, D.Finds w s t → t.Lockable w r → Safe w (k (f t.db)) f (t.grab w r)
  | .claim r free k c, f, s => ∀ t, D.Finds w s t → t.Lockable w r →
      (free (f t.db) = true → Safe w (k (f t.db)) f (t.grab w r))
        ∧ (free (f t.db) = false → Safe w c f t)
  | .write g k, f, s => ∀ t, D.Finds w s t → Safe w k (g ∘ f) t
  | .commit note, f, s => ∀ t, D.Finds w s t →
      D.inv (t.commit w f note) ∧ ∀ v, v ≠ w → D.rely v t (t.commit w f note)
  | .raise _, _, _ => True

variable {D}

/-- What the others do leaves a transaction safe. -/
theorem Safe.stable {w : ω} {t : Tx κ δ ε η} {f : δ → δ} {s s' : Store κ δ η ω}
    (h : D.Safe w t f s) (hrely : D.rely w s s') : D.Safe w t f s' := by
  cases t with
  | raise e => trivial
  | clock | read | lock | claim | write | commit =>
    intro u hu
    exact h u ⟨D.trans hrely hu.rely, hu.inv, hu.good⟩

/-- A computation that raises is safe. -/
theorem safe_attempt {w : ω} {x : Except ε α} {k : α → Tx κ δ ε η} {f : δ → δ}
    {s : Store κ δ η ω} (h : ∀ a, x = .ok a → D.Safe w (k a) f s) :
    D.Safe w (Tx.attempt x k) f s := by
  cases x with
  | error e => trivial
  | ok a => exact h a rfl

/-- **Locking rows.** An assertion about the rows still to lock and those collected, kept by
    the others and by each lock, holds when all rows are locked. -/
theorem safe_lockRows {w : ω} {collect : κ → δ → List α} {k : List α → Tx κ δ ε η} {f : δ → δ}
    {P : List κ → List α → Store κ δ η ω → Prop}
    (hlock : ∀ r rs xs s t, P (r :: rs) xs s → D.Finds w s t → t.Lockable w r →
      P rs (xs ++ collect r (f t.db)) (t.grab w r))
    (hk : ∀ xs s, P [] xs s → D.Safe w (k xs) f s) {rs : List κ} {xs : List α}
    {s : Store κ δ η ω} (h : P rs xs s) : D.Safe w (Tx.lockRows collect rs xs k) f s := by
  induction rs generalizing xs s with
  | nil => exact hk xs s h
  | cons r rs ih => exact fun t ht hfree => ih (hlock r rs xs s t h ht hfree)

/-- The assertion of a worker. -/
def Assert (D : Discipline κ δ η ω) (w : ω) : Progress κ δ ε η → Store κ δ η ω → Prop
  | .running f t, s => D.Safe w t f s
  | .committed, _ | .raised _, _ | .aborted, _ => True

/-- What a worker may rely on keeps its assertion. -/
theorem Assert.stable {w : ω} {p : Progress κ δ ε η} {s s' : Store κ δ η ω}
    (h : D.Assert w p s) (hrely : D.rely w s s') : D.Assert w p s' := by
  cases p with
  | running f t => exact Safe.stable h hrely
  | committed | raised | aborted => trivial

/-- A statement of a safe worker keeps the invariant, what the others rely on, and safety. -/
theorem Assert.step {w : ω} {p p' : Progress κ δ ε η} {s s' : Store κ δ η ω}
    (h : D.Assert w p s) (hinv : D.inv s) (hgood : D.good w s) (hst : Progress.Step w s p s' p') :
    D.inv s' ∧ (∀ v, v ≠ w → D.rely v s s') ∧ D.Assert w p' s' := by
  -- the worker finds the state as it is
  have hfinds : D.Finds w s s := ⟨D.refl w s, hinv, hgood⟩
  cases hst with
  | clock => exact ⟨(D.look hinv).1, (D.look hinv).2, h s hfinds⟩
  | read => exact ⟨hinv, fun v _ => D.refl v s, h s hfinds⟩
  | lock hfree => exact ⟨(D.grab hinv hfree).1, (D.grab hinv hfree).2, h s hfinds hfree⟩
  | claim hfree htrue =>
    exact ⟨(D.grab hinv hfree).1, (D.grab hinv hfree).2, (h s hfinds hfree).1 htrue⟩
  | conflict hfree hfalse => exact ⟨hinv, fun v _ => D.refl v s, (h s hfinds hfree).2 hfalse⟩
  | write => exact ⟨hinv, fun v _ => D.refl v s, h s hfinds⟩
  | commit => exact ⟨(h s hfinds).1, (h s hfinds).2, trivial⟩
  | raise => exact ⟨(D.release hinv).1, (D.release hinv).2, trivial⟩
  | abort => exact ⟨(D.release hinv).1, (D.release hinv).2, trivial⟩

/-- The invariant holds and every worker is safe. -/
def Holds (D : Discipline κ δ η ω) (s : Pool (Store κ δ η ω) (Progress κ δ ε η) ω) : Prop :=
  D.inv s.shared ∧ ∀ w, D.Assert w (s.locals w) s.shared

/-- One step keeps the invariant, and every worker safe. -/
theorem Holds.step {s t : Pool (Store κ δ η ω) (Progress κ δ ε η) ω} {m : Move ω}
    (h : D.Holds s) (hgood : MoveOk D.good s m) (hst : Step (transactions κ δ ε η ω) s m t) :
    D.Holds t := by
  obtain ⟨hinv, hassert⟩ := h
  cases hst with
  | @work w s' p' hw =>
    obtain ⟨hinv', hrely, hsafe⟩ := (hassert w).step hinv hgood hw
    refine ⟨hinv', fun v => ?_⟩
    -- the worker that moved, and the others, which rely on it
    by_cases hv : v = w
    · subst hv
      simpa using hsafe
    · show D.Assert v (Function.update s.locals w p' v) s'
      rw [Function.update_of_ne hv]
      exact (hassert v).stable (hrely v hv)
  | env he =>
    obtain ⟨later, hle, rfl⟩ := he
    exact ⟨(D.tick hinv hle).1, fun v => (hassert v).stable ((D.tick hinv hle).2 v)⟩

/-- **Soundness.** Along every interleaving whose moves are good, the invariant holds. -/
theorem sound {s t : Pool (Store κ δ η ω) (Progress κ δ ε η) ω} {ms : List (Move ω)}
    (h : Run (fun s m t => MoveOk D.good s m ∧ Step (transactions κ δ ε η ω) s m t) s ms t)
    (hinv : D.inv s.shared) {tx : ω → Tx κ δ ε η} (hlocals : ∀ w, s.locals w = .running id (tx w))
    (hsafe : ∀ w, D.Safe w (tx w) id s.shared) : D.inv t.shared := by
  have hholds : D.Holds t := h.invariant (fun u m v hu hst => hu.step hst.1 hst.2)
    ⟨hinv, fun w => by rw [hlocals w]; exact hsafe w⟩
  exact hholds.1

end Discipline

end

end ReadCommitted
