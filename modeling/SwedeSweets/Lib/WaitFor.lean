import SwedeSweets.Lib.ReadCommitted
import Mathlib.Logic.Relation

namespace ReadCommitted

open Transition Interleaving

/-!
# Who waits for whom

A transaction that requests a row another one holds waits for it (`WaitsFor`); a state is
deadlocked on some rows when a transaction waits, through others and for these rows, for
itself.

* `not_deadlocked` — when every row is some transaction's own or shared, and the shared rows are
  requested along one ranking, nobody waits for itself.
* `Request`, `ClimbsFrom` — what a transaction may request, in order, and when that follows a
  ranking; `Fulfils` is what it does request of it.
* `Locking` — which rows are whose, the ranking, and a rely and a guarantee on the committed
  database; `Locking.Walks` is what a transaction has to satisfy so that it requests the rows in
  this way, whatever the others commit meanwhile.
* `Locking.permitsAll_of_fulfils` — what is requested of climbing requests is requested along the
  ranking.
* `Locking.no_deadlock` — when all transactions do, no interleaving deadlocks.
-/

variable {κ κ' δ ε ε' η η' ω : Type}

/-! ### The wait-for relation -/

/-- The row that the next statement locks or claims. -/
def Progress.requested : Progress κ δ ε η → Option κ
  | .running _ (.lock r _) => some r
  | .running _ (.claim r _ _ _) => some r
  | _ => none

section

variable (s : Pool (Store κ δ η ω) (Progress κ δ ε η) ω) (rows : κ → Prop)

/-- Worker `w` requests one of the rows, and `v` holds it. -/
def WaitsFor (w v : ω) : Prop :=
  v ≠ w ∧ ∃ r, rows r ∧ (s.locals w).requested = some r ∧ s.shared.locks r = some v

/-- Somebody waits for itself, through others. -/
def Deadlocked : Prop := ∃ w, Relation.TransGen (WaitsFor s rows) w w

/-- Whoever requests a shared row that it does not hold yet, holds only shared rows before it. -/
def Ascends (isShared : κ → Prop) (rank : κ → ℕ) : Prop :=
  ∀ w r, (s.locals w).requested = some r → isShared r → s.shared.locks r ≠ some w →
    ∀ r', isShared r' → s.shared.locks r' = some w → rank r' < rank r

variable {s rows}

/-- **No deadlock.** Every row requested or held is one its worker has to itself, or shared, and
    the shared ones are requested along a ranking. -/
theorem not_deadlocked (own : ω → κ → Prop) (isShared : κ → Prop) (rank : κ → ℕ)
    (hown : ∀ {w v r}, own w r → own v r → w = v) (hapart : ∀ {w r}, own w r → ¬ isShared r)
    (hheld : ∀ w r, s.shared.locks r = some w → own w r ∨ isShared r)
    (hrequested : ∀ w r, (s.locals w).requested = some r → own w r ∨ isShared r)
    (hasc : Ascends s isShared rank) : ¬ Deadlocked s rows := by
  -- a row that is waited for is shared
  have hwaits : ∀ {w v}, WaitsFor s rows w v → ∃ r, (s.locals w).requested = some r
      ∧ s.shared.locks r = some v ∧ v ≠ w ∧ isShared r := by
    rintro w v ⟨hne, r, -, hreq, hlock⟩
    refine ⟨r, hreq, hlock, hne, (hrequested w r hreq).resolve_left (fun hw => ?_)⟩
    rcases hheld v r hlock with hv | hshared
    · exact hne (hown hv hw)
    · exact hapart hw hshared
  have hnext : ∀ {w v u}, WaitsFor s rows w v → WaitsFor s rows v u → ∀ r r',
      (s.locals w).requested = some r → (s.locals v).requested = some r' → rank r < rank r' := by
    intro w v u hwv hvu r r' hr hr'
    obtain ⟨x, hx, hlock, hne, hshared⟩ := hwaits hwv
    obtain ⟨y, hy, hlock', hne', hshared'⟩ := hwaits hvu
    obtain rfl : x = r := Option.some.inj (hx.symm.trans hr)
    obtain rfl : y = r' := Option.some.inj (hy.symm.trans hr')
    refine hasc v y hy hshared' (fun hmine => ?_) x hshared hlock
    exact hne' (Option.some.inj (hlock'.symm.trans hmine))
  -- along a chain that goes on, the rank of what is requested rises
  have hchain : ∀ {w v}, Relation.TransGen (WaitsFor s rows) w v → ∀ {u}, WaitsFor s rows v u →
      ∀ r r', (s.locals w).requested = some r → (s.locals v).requested = some r' →
        rank r < rank r' := by
    intro w v hwv
    induction hwv with
    | single h => exact fun hvu => hnext h hvu
    | tail _ h ih =>
      intro u hvu r r' hr hr'
      obtain ⟨x, hx, -⟩ := hwaits h
      exact Nat.lt_trans (ih h r x hr hx) (hnext h hvu x r' hx hr')
  rintro ⟨w, hcycle⟩
  obtain ⟨v, hwv, -⟩ := Relation.TransGen.head'_iff.mp hcycle
  obtain ⟨r, hr, -⟩ := hwaits hwv
  exact Nat.lt_irrefl _ (hchain hcycle hwv r r hr hr)

end

/-! ### Planned requests -/

/-- A row that a transaction may request, and whether it does so in any case. -/
structure Request (κ : Type) where
  row : κ
  certain : Bool

/-- Each request is for a row that is certainly held by then, or its row comes after all others
    that may have been requested before. -/
def ClimbsFrom (rank : κ → ℕ) : List (Request κ) → List (Request κ) → Prop
  | _, [] => True
  | past, q :: qs =>
      ((∃ p ∈ past, p.certain = true ∧ p.row = q.row)
        ∨ ∀ p ∈ past, p.row = q.row ∨ rank p.row < rank q.row)
      ∧ ClimbsFrom rank (past ++ [q]) qs

instance decidableClimbsFrom [DecidableEq κ] (rank : κ → ℕ) :
    (past reqs : List (Request κ)) → Decidable (ClimbsFrom rank past reqs)
  | _, [] => isTrue trivial
  | past, q :: qs =>
      have := decidableClimbsFrom rank (past ++ [q]) qs
      inferInstanceAs (Decidable (_ ∧ _))

/-- What is planned can be cut in two. -/
theorem climbsFrom_append {rank : κ → ℕ} {past xs ys : List (Request κ)} :
    ClimbsFrom rank past (xs ++ ys)
      ↔ ClimbsFrom rank past xs ∧ ClimbsFrom rank (past ++ xs) ys := by
  induction xs generalizing past with
  | nil => simp [ClimbsFrom]
  | cons x xs ih => simp only [List.cons_append, ClimbsFrom, ih, List.append_assoc, and_assoc,
      List.nil_append]

/-- The rows that are requested, beside some of one's own: all those that were certain, and some
    of the others, in the order planned. -/
inductive Fulfils (own : κ → Prop) : List (Request κ) → List κ → Prop where
  | nil : Fulfils own [] []
  | own {r : κ} {qs : List (Request κ)} {rs : List κ} :
      own r → Fulfils own qs rs → Fulfils own qs (r :: rs)
  | take {q : Request κ} {qs : List (Request κ)} {rs : List κ} :
      Fulfils own qs rs → Fulfils own (q :: qs) (q.row :: rs)
  | skip {q : Request κ} {qs : List (Request κ)} {rs : List κ} :
      q.certain = false → Fulfils own qs rs → Fulfils own (q :: qs) rs

namespace Fulfils

variable {own : κ → Prop} {qs : List (Request κ)} {rs : List κ}

/-- What is planned and what is requested, in two parts. -/
theorem append {qs' : List (Request κ)} {rs' : List κ} (h : Fulfils own qs rs)
    (h' : Fulfils own qs' rs') : Fulfils own (qs ++ qs') (rs ++ rs') := by
  induction h with
  | nil => exact h'
  | own hr _ ih => exact .own hr ih
  | take _ ih => exact .take ih
  | skip hq _ ih => exact .skip hq ih

/-- Nothing is certain: any of the rows may be left out. -/
theorem skips (h : ∀ q ∈ qs, q.certain = false) : Fulfils own qs [] := by
  induction qs with
  | nil => exact .nil
  | cons q qs ih =>
    exact .skip (h q (List.mem_cons_self ..)) (ih (fun p hp => h p (List.mem_cons_of_mem _ hp)))

/-- Requests for one thing after the other: some of the things may be left out, if nothing that is
    planned for them is certain. -/
theorem flatMap_of_sublist {α : Type} {plan : α → List (Request κ)} {rows : α → List κ}
    {xs ys : List α} (h : xs.Sublist ys) (hnodup : ys.Nodup)
    (htake : ∀ x ∈ xs, Fulfils own (plan x) (rows x))
    (hskip : ∀ y ∈ ys, y ∉ xs → ∀ q ∈ plan y, q.certain = false) :
    Fulfils own (ys.flatMap plan) (xs.flatMap rows) := by
  induction h with
  | slnil => exact .nil
  | @cons xs ys y h ih =>
    obtain ⟨hy, hnodup⟩ := List.nodup_cons.mp hnodup
    have hleft : Fulfils own (plan y) [] :=
      skips (hskip y (List.mem_cons_self ..) (fun hx => hy (h.subset hx)))
    exact hleft.append (ih hnodup htake (fun z hz => hskip z (List.mem_cons_of_mem _ hz)))
  | @cons_cons xs ys y h ih =>
    obtain ⟨hy, hnodup⟩ := List.nodup_cons.mp hnodup
    refine (htake y (List.mem_cons_self ..)).append
      (ih hnodup (fun x hx => htake x (List.mem_cons_of_mem _ hx)) (fun z hz hzx => ?_))
    -- nothing is listed twice
    refine hskip z (List.mem_cons_of_mem _ hz) (fun hmem => ?_)
    rcases List.mem_cons.mp hmem with rfl | hmem
    · exact hy hz
    · exact hzx hmem

end Fulfils

/-! ### Requesting rows along a ranking -/

variable (κ δ ω) in
/-- Which rows a worker has to itself and which are shared, the ranking of the shared ones, what
    the commit of a worker does to the database, and what it relies on the others to do. -/
structure Locking where
  own : ω → κ → Prop
  shared : κ → Prop
  rank : κ → ℕ
  guar : ω → δ → δ → Prop
  rely : ω → δ → δ → Prop
  own_inj : ∀ {w v r}, own w r → own v r → w = v
  own_apart : ∀ {w r}, own w r → ¬ shared r
  guar_refl : ∀ w d, guar w d d
  rely_refl : ∀ w d, rely w d d
  rely_trans : ∀ {w d d' d''}, rely w d d' → rely w d' d'' → rely w d d''
  grants : ∀ {w v d d'}, v ≠ w → guar w d d' → rely v d d'

namespace Locking

variable (L : Locking κ δ ω)

/-- Worker `w`, holding the rows `held`, may request `r`. -/
def Permits (w : ω) (held : List κ) (r : κ) : Prop :=
  L.own w r ∨ (L.shared r ∧ (r ∈ held ∨ ∀ r' ∈ held, L.shared r' → L.rank r' < L.rank r))

/-- Worker `w` may request the rows one after the other. -/
def PermitsAll (w : ω) : List κ → List κ → Prop
  | _, [] => True
  | held, r :: rs => L.Permits w held r ∧ PermitsAll w (r :: held) rs

/-- What `w` has written stays within its guarantee, on whatever database it is committed to. -/
def Keeps (w : ω) (f : δ → δ) (d : δ) : Prop := ∀ d', L.rely w d d' → L.guar w d' (f d')

/-- The rest of a transaction, with the rows it names seen as `row`: it requests what it may, and
    writes what it may, whatever it finds, and if it commits, it ends with `Q` of the rows it
    holds and of what it has written. -/
def Walks (row : κ' → κ) (Q : List κ → (δ → δ) → Prop) (w : ω) :
    Tx κ' δ ε η → List κ → (δ → δ) → δ → Prop
  | .clock k, held, f, d => ∀ now, Walks row Q w (k now) held f d
  | .read k, held, f, d => ∀ d', L.rely w d d' → Walks row Q w (k (f d')) held f d'
  | .lock r k, held, f, d =>
      L.Permits w held (row r) ∧
        ∀ d', L.rely w d d' → Walks row Q w (k (f d')) (row r :: held) f d'
  | .claim r _ k c, held, f, d =>
      L.Permits w held (row r) ∧ ∀ d', L.rely w d d' →
        Walks row Q w (k (f d')) (row r :: held) f d' ∧ Walks row Q w c held f d'
  | .write g k, held, f, d =>
      (∀ d', L.rely w d d' → L.guar w d' (f d') → L.guar w d' (g (f d')))
        ∧ Walks row Q w k held (g ∘ f) d
  | .commit _, held, f, _ => Q held f
  | .raise _, _, _, _ => True

variable {L} {w : ω} {held : List κ} {f : δ → δ} {d d' : δ} {row : κ' → κ}
  {Q : List κ → (δ → δ) → Prop}

/-- What the others commit does not break the guarantee. -/
theorem Keeps.stable (h : L.Keeps w f d) (hrely : L.rely w d d') : L.Keeps w f d' :=
  fun x hx => h x (L.rely_trans hrely hx)

/-- What the others commit does not matter. -/
theorem Walks.stable {t : Tx κ' δ ε η} (h : L.Walks row Q w t held f d) (hrely : L.rely w d d') :
    L.Walks row Q w t held f d' := by
  induction t generalizing held f with
  | clock k ih => exact fun now => ih now (h now)
  | read k ih => exact fun x hx => h x (L.rely_trans hrely hx)
  | lock r k ih => exact ⟨h.1, fun x hx => h.2 x (L.rely_trans hrely hx)⟩
  | claim r free k c ihk ihc => exact ⟨h.1, fun x hx => h.2 x (L.rely_trans hrely hx)⟩
  | write g k ih => exact ⟨fun x hx => h.1 x (L.rely_trans hrely hx), ih h.2⟩
  | commit note => exact h
  | raise e => trivial

/-! ### Rules -/

/-- A computation that raises requests nothing more. -/
theorem walks_attempt {α : Type} {x : Except ε α} {k : α → Tx κ' δ ε η}
    (h : ∀ a, x = .ok a → L.Walks row Q w (k a) held f d) :
    L.Walks row Q w (Tx.attempt x k) held f d := by
  cases x with
  | error e => trivial
  | ok a => exact h a rfl

/-- The rows held fit what was planned so far: the shared ones were planned, and what was certain
    is held. -/
structure Follows (L : Locking κ δ ω) (held : List κ) (past : List (Request κ)) : Prop where
  planned : ∀ r ∈ held, L.shared r → ∃ p ∈ past, p.row = r
  certain : ∀ p ∈ past, p.certain = true → p.row ∈ held

/-- When nothing shared is held, nothing was planned so far. -/
theorem follows_nil (h : ∀ r ∈ held, ¬ L.shared r) : L.Follows held [] :=
  ⟨fun r hr hshared => absurd hshared (h r hr), fun _ hp => absurd hp List.not_mem_nil⟩

/-- Rows that fulfil climbing requests may be requested, and then the rows held fit these too. -/
theorem permitsAll_of_fulfils {reqs past : List (Request κ)} {rs : List κ}
    (hreqs : ∀ q ∈ reqs, L.shared q.row) (h : Fulfils (L.own w) reqs rs)
    (hclimbs : ClimbsFrom L.rank past reqs) (hheld : L.Follows held past) :
    L.PermitsAll w held rs ∧ L.Follows (rs.reverse ++ held) (past ++ reqs) := by
  induction h generalizing past held with
  | nil => exact ⟨trivial, by simpa using hheld⟩
  | @own r qs rs hown _ ih =>
    -- the new row is not shared
    have hnext : L.Follows (r :: held) past := by
      refine ⟨fun x hx hshared => ?_, fun p hp hc => List.mem_cons_of_mem _ (hheld.certain p hp hc)⟩
      rcases List.mem_cons.mp hx with rfl | hx
      · exact absurd hshared (L.own_apart hown)
      · exact hheld.planned x hx hshared
    obtain ⟨hall, hend⟩ := ih hreqs hclimbs hnext
    exact ⟨⟨Or.inl hown, hall⟩, by simpa using hend⟩
  | @take q qs rs _ ih =>
    obtain ⟨hq, hclimbs⟩ := hclimbs
    have hpermits : L.Permits w held q.row := by
      refine Or.inr ⟨hreqs q (List.mem_cons_self ..), ?_⟩
      by_cases hmem : q.row ∈ held
      · exact Or.inl hmem
      · refine Or.inr (fun r hr hshared => ?_)
        rcases hq with ⟨p, hp, hc, hpq⟩ | hafter
        · exact absurd (hpq ▸ hheld.certain p hp hc) hmem
        · obtain ⟨p, hp, rfl⟩ := hheld.planned r hr hshared
          exact (hafter p hp).resolve_left (fun heq => hmem (heq ▸ hr))
    have hnext : L.Follows (q.row :: held) (past ++ [q]) := by
      refine ⟨fun x hx hshared => ?_, fun p hp hc => ?_⟩
      · rcases List.mem_cons.mp hx with rfl | hx
        · exact ⟨q, List.mem_append_right _ (List.mem_singleton_self q), rfl⟩
        · obtain ⟨p, hp, hpx⟩ := hheld.planned x hx hshared
          exact ⟨p, List.mem_append_left _ hp, hpx⟩
      · rcases List.mem_append.mp hp with hp | hp
        · exact List.mem_cons_of_mem _ (hheld.certain p hp hc)
        · obtain rfl := List.mem_singleton.mp hp
          exact List.mem_cons_self ..
    obtain ⟨hall, hend⟩ := ih (fun p hp => hreqs p (List.mem_cons_of_mem _ hp)) hclimbs hnext
    exact ⟨⟨hpermits, hall⟩, by simpa using hend⟩
  | @skip q qs rs hskip _ ih =>
    -- what is left out was not certain
    have hnext : L.Follows held (past ++ [q]) := by
      refine ⟨fun x hx hshared => ?_, fun p hp hc => ?_⟩
      · obtain ⟨p, hp, hpx⟩ := hheld.planned x hx hshared
        exact ⟨p, List.mem_append_left _ hp, hpx⟩
      · rcases List.mem_append.mp hp with hp | hp
        · exact hheld.certain p hp hc
        · obtain rfl := List.mem_singleton.mp hp
          rw [hskip] at hc
          cases hc
    obtain ⟨hall, hend⟩ := ih (fun p hp => hreqs p (List.mem_cons_of_mem _ hp)) hclimbs.2 hnext
    exact ⟨hall, by simpa using hend⟩

/-- Rows that are held may be requested again. -/
theorem permitsAll_of_held {rs : List κ} (hrs : ∀ r ∈ rs, L.shared r ∧ r ∈ held) :
    L.PermitsAll w held rs := by
  induction rs generalizing held with
  | nil => trivial
  | cons r rs ih =>
    obtain ⟨hshared, hmem⟩ := hrs r (List.mem_cons_self ..)
    refine ⟨Or.inr ⟨hshared, Or.inl hmem⟩, ih (fun x hx => ?_)⟩
    obtain ⟨hshared, hmem⟩ := hrs x (List.mem_cons_of_mem _ hx)
    exact ⟨hshared, List.mem_cons_of_mem _ hmem⟩

/-- A worker's own rows may be requested. -/
theorem permitsAll_of_own {rs : List κ} (hrs : ∀ r ∈ rs, L.own w r) : L.PermitsAll w held rs := by
  induction rs generalizing held with
  | nil => trivial
  | cons r rs ih =>
    exact ⟨Or.inl (hrs r (List.mem_cons_self ..)),
      ih (fun x hx => hrs x (List.mem_cons_of_mem _ hx))⟩

/-- Locking rows that may be requested; `P` holds of whatever is read with the locks. -/
theorem walks_lockRows {α : Type} {collect : κ' → δ → List α} {k : List α → Tx κ' δ ε η}
    {rs : List κ'} {xs : List α} {P : α → Prop} (hrs : L.PermitsAll w held (rs.map row))
    (hcollect : ∀ r ∈ rs, ∀ d', L.rely w d d' → ∀ x ∈ collect r (f d'), P x) (hxs : ∀ x ∈ xs, P x)
    (hk : ∀ xs d', (∀ x ∈ xs, P x) → L.rely w d d' →
      L.Walks row Q w (k xs) ((rs.map row).reverse ++ held) f d') :
    L.Walks row Q w (Tx.lockRows collect rs xs k) held f d := by
  -- row by row, with more rows held and the others committing in between
  induction rs generalizing xs held d with
  | nil => exact hk xs d hxs (L.rely_refl w d)
  | cons r rs ih =>
    refine ⟨hrs.1, fun d' hd' => ih hrs.2 (fun x hx d'' hd'' => ?_) (fun x hx => ?_) ?_⟩
    · exact hcollect x (List.mem_cons_of_mem _ hx) d'' (L.rely_trans hd' hd'')
    · rcases List.mem_append.mp hx with hx | hx
      · exact hxs x hx
      · exact hcollect r (List.mem_cons_self ..) d' hd' x hx
    · intro ys d'' hys hd''
      have hwalks := hk ys d'' hys (L.rely_trans hd' hd'')
      rwa [List.map_cons, List.reverse_cons, List.append_assoc] at hwalks

/-- A nested transaction, and what follows it. -/
theorem walks_within {κ'' : Type} {row' : κ'' → κ'} {err : ε → ε'} {t : Tx κ'' δ ε η}
    {rest : Tx κ' δ ε' η'} {Q' : List κ → (δ → δ) → Prop} (hkeeps : L.Keeps w f d)
    (h : L.Walks (row ∘ row') Q' w t held f d)
    (hrest : ∀ held' f' d', L.rely w d d' → L.Keeps w f' d' → Q' held' f' →
      L.Walks row Q w rest held' f' d') :
    L.Walks row Q w (Tx.within row' err t rest) held f d := by
  -- by the statements of the nested transaction; its commit is where `rest` begins
  induction t generalizing held f d with
  | clock k ih => exact fun now => ih now hkeeps (h now) hrest
  | read k ih =>
    exact fun x hx => ih _ (hkeeps.stable hx) (h x hx)
      (fun held' f' d' hd' => hrest held' f' d' (L.rely_trans hx hd'))
  | lock r k ih =>
    exact ⟨h.1, fun x hx => ih _ (hkeeps.stable hx) (h.2 x hx)
      (fun held' f' d' hd' => hrest held' f' d' (L.rely_trans hx hd'))⟩
  | claim r free k c ihk ihc =>
    exact ⟨h.1, fun x hx =>
      ⟨ihk _ (hkeeps.stable hx) (h.2 x hx).1
          (fun held' f' d' hd' => hrest held' f' d' (L.rely_trans hx hd')),
        ihc (hkeeps.stable hx) (h.2 x hx).2
          (fun held' f' d' hd' => hrest held' f' d' (L.rely_trans hx hd'))⟩⟩
  | write g k ih => exact ⟨h.1, ih (fun x hx => h.1 x hx (hkeeps x hx)) h.2 hrest⟩
  | commit note => exact hrest held f d (L.rely_refl w d) hkeeps h
  | raise e => trivial

/-! ### Soundness -/

/-- Every row held is one its worker may hold, and every transaction walks on from the rows it
    holds. -/
structure Holds (L : Locking κ δ ω) (s : Pool (Store κ δ η ω) (Progress κ δ ε η) ω) : Prop where
  held : ∀ w r, s.shared.locks r = some w → L.own w r ∨ L.shared r
  walks : ∀ w f t, s.locals w = .running f t → ∃ held, (∀ r, s.shared.locks r = some w ↔ r ∈ held)
    ∧ L.Keeps w f s.shared.db ∧ L.Walks id (fun _ _ => True) w t held f s.shared.db

/-- What is requested is permitted. -/
theorem Holds.requested {s : Pool (Store κ δ η ω) (Progress κ δ ε η) ω} (h : L.Holds s) {r : κ}
    (hr : (s.locals w).requested = some r) :
    ∃ held, (∀ r, s.shared.locks r = some w ↔ r ∈ held) ∧ L.Permits w held r := by
  cases hp : s.locals w with
  | running f t =>
    rw [hp] at hr
    obtain ⟨held, hheld, -, hwalks⟩ := h.walks w f t hp
    -- only a lock and a claim request a row
    cases t with
    | lock r' k => exact ⟨held, hheld, Option.some.inj hr ▸ hwalks.1⟩
    | claim r' free k c => exact ⟨held, hheld, Option.some.inj hr ▸ hwalks.1⟩
    | clock | read | write | commit | raise => cases hr
  | committed | raised | aborted =>
    rw [hp] at hr
    cases hr

/-- In such a state nobody waits for itself. -/
theorem Holds.not_deadlocked {s : Pool (Store κ δ η ω) (Progress κ δ ε η) ω} (h : L.Holds s)
    (rows : κ → Prop) : ¬ Deadlocked s rows := by
  -- a shared row that is requested and not held ranks above those held
  have hasc : Ascends s L.shared L.rank := by
    intro w r hr hs hnot r' hs' hr'
    obtain ⟨held, hheld, hpermits⟩ := h.requested hr
    rcases hpermits with hown | ⟨-, hmem | hlt⟩
    · exact absurd hs (L.own_apart hown)
    · exact absurd ((hheld r).mpr hmem) hnot
    · exact hlt r' ((hheld r').mp hr') hs'
  refine ReadCommitted.not_deadlocked L.own L.shared L.rank L.own_inj L.own_apart h.held
    (fun w r hr => ?_) hasc
  obtain ⟨held, -, hpermits⟩ := h.requested hr
  exact hpermits.imp_right (fun h => h.1)

section

variable [DecidableEq κ] [DecidableEq ω]

omit [DecidableEq ω] in
/-- Taking a permitted row that is free: the rows stay where they belong, the others hold and rely
    on what they did, and `w` holds one row more. -/
theorem Holds.grab {s : Pool (Store κ δ η ω) (Progress κ δ ε η) ω} (h : L.Holds s) {r : κ}
    (hfree : s.shared.Lockable w r) {held : List κ}
    (hheld : ∀ r, s.shared.locks r = some w ↔ r ∈ held) (hpermits : L.Permits w held r) :
    (∀ v x, (s.shared.grab w r).locks x = some v → L.own v x ∨ L.shared x)
      ∧ (∀ v, v ≠ w → (∀ x, (s.shared.grab w r).locks x = some v ↔ s.shared.locks x = some v)
          ∧ L.rely v s.shared.db (s.shared.grab w r).db)
      ∧ ∀ x, (s.shared.grab w r).locks x = some w ↔ x ∈ r :: held := by
  refine ⟨fun v x hx => ?_, fun v hv => ⟨fun x => ?_, L.rely_refl v _⟩, fun x => ?_⟩
  · rcases (Store.locks_grab hfree v x).mp hx with hx | ⟨rfl, rfl⟩
    · exact h.held v x hx
    · exact hpermits.imp_right (fun h => h.1)
  · rw [Store.locks_grab hfree]
    exact ⟨fun hx => hx.resolve_right (fun hc => hv hc.1), Or.inl⟩
  · rw [Store.locks_grab hfree, hheld, List.mem_cons]
    simp [or_comm]

omit [DecidableEq κ] in
/-- A transaction that ends: the rows of the others stay theirs. -/
theorem Holds.release {s : Pool (Store κ δ η ω) (Progress κ δ ε η) ω} (h : L.Holds s) :
    (∀ v r, (s.shared.release w).locks r = some v → L.own v r ∨ L.shared r)
      ∧ ∀ v, v ≠ w → ∀ r, (s.shared.release w).locks r = some v ↔ s.shared.locks r = some v := by
  refine ⟨fun v r hr => h.held v r (Store.locks_release v r |>.mp hr).1, fun v hv r => ?_⟩
  rw [Store.locks_release]
  exact ⟨fun hr => hr.1, fun hr => ⟨hr, hv⟩⟩

/-- **One statement** of `w` keeps the rows where they belong, leaves the others what they hold
    and rely on, and `w` walks on. -/
theorem Holds.work {s : Pool (Store κ δ η ω) (Progress κ δ ε η) ω} (h : L.Holds s)
    {s' : Store κ δ η ω} {p p' : Progress κ δ ε η} (hp : s.locals w = p)
    (hst : Progress.Step w s.shared p s' p') :
    (∀ v r, s'.locks r = some v → L.own v r ∨ L.shared r)
      ∧ (∀ v, v ≠ w → (∀ r, s'.locks r = some v ↔ s.shared.locks r = some v)
          ∧ L.rely v s.shared.db s'.db)
      ∧ ∀ f t, p' = .running f t → ∃ held, (∀ r, s'.locks r = some w ↔ r ∈ held)
          ∧ L.Keeps w f s'.db ∧ L.Walks id (fun _ _ => True) w t held f s'.db := by
  have hsame : ∀ v, v ≠ w → (∀ r, s.shared.locks r = some v ↔ s.shared.locks r = some v)
      ∧ L.rely v s.shared.db s.shared.db := fun v _ => ⟨fun _ => Iff.rfl, L.rely_refl v _⟩
  have hrelease := h.release (w := w)
  -- what a statement may do to the locks: nothing, one row more, or all of them given back
  cases hst with
  | clock =>
    obtain ⟨held, hheld, hkeeps, hwalks⟩ := h.walks w _ _ hp
    exact ⟨h.held, hsame, by rintro f t ⟨⟩; exact ⟨held, hheld, hkeeps, hwalks _⟩⟩
  | read =>
    obtain ⟨held, hheld, hkeeps, hwalks⟩ := h.walks w _ _ hp
    exact ⟨h.held, hsame, by rintro f t ⟨⟩; exact ⟨held, hheld, hkeeps, hwalks _ (L.rely_refl w _)⟩⟩
  | lock hfree =>
    obtain ⟨held, hheld, hkeeps, hpermits, hwalks⟩ := h.walks w _ _ hp
    obtain ⟨hrows, hothers, hmine⟩ := h.grab hfree hheld hpermits
    exact ⟨hrows, hothers,
      by rintro f t ⟨⟩; exact ⟨_, hmine, hkeeps, hwalks _ (L.rely_refl w _)⟩⟩
  | claim hfree htrue =>
    obtain ⟨held, hheld, hkeeps, hpermits, hwalks⟩ := h.walks w _ _ hp
    obtain ⟨hrows, hothers, hmine⟩ := h.grab hfree hheld hpermits
    exact ⟨hrows, hothers,
      by rintro f t ⟨⟩; exact ⟨_, hmine, hkeeps, (hwalks _ (L.rely_refl w _)).1⟩⟩
  | conflict hfree hfalse =>
    obtain ⟨held, hheld, hkeeps, -, hwalks⟩ := h.walks w _ _ hp
    exact ⟨h.held, hsame,
      by rintro f t ⟨⟩; exact ⟨held, hheld, hkeeps, (hwalks _ (L.rely_refl w _)).2⟩⟩
  | write =>
    obtain ⟨held, hheld, hkeeps, hguar, hwalks⟩ := h.walks w _ _ hp
    exact ⟨h.held, hsame, by
      rintro f t ⟨⟩
      exact ⟨held, hheld, fun x hx => hguar x hx (hkeeps x hx), hwalks⟩⟩
  | commit =>
    obtain ⟨-, -, hkeeps, -⟩ := h.walks w _ _ hp
    exact ⟨hrelease.1, fun v hv => ⟨hrelease.2 v hv, L.grants hv (hkeeps _ (L.rely_refl w _))⟩,
      by rintro f t ⟨⟩⟩
  | raise => exact ⟨hrelease.1, fun v hv => ⟨hrelease.2 v hv, L.rely_refl v _⟩, by rintro f t ⟨⟩⟩
  | abort => exact ⟨hrelease.1, fun v hv => ⟨hrelease.2 v hv, L.rely_refl v _⟩, by rintro f t ⟨⟩⟩

/-- One step of any worker, or of the clock. -/
theorem Holds.step {s t : Pool (Store κ δ η ω) (Progress κ δ ε η) ω} {m : Move ω} (h : L.Holds s)
    (hst : Step (transactions κ δ ε η ω) s m t) : L.Holds t := by
  cases hst with
  | @work w s' p' hw =>
    obtain ⟨hheld, hothers, hown⟩ := h.work rfl hw
    refine ⟨hheld, fun v f k hv => ?_⟩
    -- the worker that moved, and the others
    by_cases hvw : v = w
    · subst hvw
      exact hown f k (by rw [← hv]; simp)
    · have hv : s.locals v = .running f k := by
        rw [← hv]
        exact (Function.update_of_ne hvw ..).symm
      obtain ⟨held, hmine, hkeeps, hwalks⟩ := h.walks v f k hv
      obtain ⟨hlocks, hrely⟩ := hothers v hvw
      exact ⟨held, fun r => (hlocks r).trans (hmine r), hkeeps.stable hrely, hwalks.stable hrely⟩
  | env he =>
    obtain ⟨later, -, rfl⟩ := he
    exact ⟨h.held, h.walks⟩

/-- **Soundness.** When every transaction requests the rows as it may, no state of any
    interleaving is deadlocked, on whatever rows. -/
theorem no_deadlock {s t : Pool (Store κ δ η ω) (Progress κ δ ε η) ω} {ms : List (Move ω)}
    (L : Locking κ δ ω) (rows : κ → Prop) (hrun : Run (Step (transactions κ δ ε η ω)) s ms t)
    (hfree : ∀ r, s.shared.locks r = none) {tx : ω → Tx κ δ ε η}
    (hlocals : ∀ w, s.locals w = .running id (tx w))
    (hwalks : ∀ w, L.Walks id (fun _ _ => True) w (tx w) [] id s.shared.db) :
    ¬ Deadlocked t rows := by
  -- nothing is locked and nothing is written at the start
  have hstart : L.Holds s := by
    refine ⟨fun w r hr => ?_, fun w f k hw => ?_⟩
    · rw [hfree r] at hr
      cases hr
    · have hw := (hlocals w).symm.trans hw
      cases hw
      exact ⟨[], fun r => by simp [hfree r], fun d _ => L.guar_refl w d, hwalks w⟩
  have hend : L.Holds t := hrun.invariant (fun _ _ _ h hst => h.step hst) hstart
  exact hend.not_deadlocked rows

end

end Locking

end ReadCommitted
