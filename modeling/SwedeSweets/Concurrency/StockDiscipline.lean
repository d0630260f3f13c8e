import SwedeSweets.Concurrency.StockTransactions
import SwedeSweets.Invariants.Stock
import Mathlib.Data.Fintype.Basic

namespace SwedeSweets

open Relational Fallible Transition Interleaving ReadCommitted

/-!
# The lock discipline of stock

What the stock transactions keep, and what each of them relies on the others to keep while it
holds its locks.

* `promised` — the units of a batch that reservations hold or may come to hold: those of the
  active rows and those of the rows a running promotion has found active (`Claimed`);
* `StockInv` — promised units fit the stock, and the quantity of every batch is what the
  committed corrections and picks make of it (`replay`);
* `StockRely` — rows that a worker has locked stay as they are, and no more units of a batch
  it has locked are promised;
* `Heard` — when a worker moves that has read the clock, the claimed rows on its locked
  batches are active at its reading.
-/

abbrev StockStore (ω : Type) := Store RowId Db StockEntry ω

/-! ### Claims -/

/-- The row is RESERVED for the order being promoted, and was active when the promotion read
    the clock. -/
def StockCall.claims (call : StockCall) (since : Option Time) (a : Allocation) : Bool :=
  match call, since with
  | .promote orderPk, some now => reservedOf orderPk a && a.isActive now
  | _, _ => false

section

variable {ω : Type} (calls : ω → Runtime × StockCall)

/-- Some running promotion may make the row durable. -/
def Claimed (s : StockStore ω) (a : Allocation) : Prop :=
  ∃ v, (calls v).2.claims (s.since v) a = true

/-- A row whose units are promised: active now, or claimed. -/
def Counts (s : StockStore ω) (a : Allocation) : Prop :=
  a.isActive s.clock = true ∨ Claimed calls s a

open Classical in
/-- The units of a batch that a row promises. -/
noncomputable def promise (s : StockStore ω) (batchPk : ℕ) (a : Allocation) : ℕ :=
  if a.batchId = batchPk ∧ Counts calls s a then a.quantity else 0

/-- The promised units of a batch. -/
noncomputable def promised (s : StockStore ω) (batchPk : ℕ) : ℕ :=
  s.db.allocations.total (promise calls s batchPk)

/-- The claimed rows on the batches `w` has locked are active at the clock it has read. -/
def Heard (w : ω) (s : StockStore ω) : Prop :=
  ∀ now, s.since w = some now → ∀ a ∈ s.db.allocations, s.locks (.batch a.batchId) = some w →
    Claimed calls s a → a.isActive now = true

instance [Fintype ω] (s : StockStore ω) (a : Allocation) : Decidable (Claimed calls s a) :=
  inferInstanceAs (Decidable (∃ v, (calls v).2.claims (s.since v) a = true))

instance [Fintype ω] [DecidableEq ω] (w : ω) (s : StockStore ω) : Decidable (Heard calls w s) :=
  match hs : s.since w with
  | none => .isTrue (fun now h => by rw [hs] at h; cases h)
  | some now =>
      decidable_of_iff (∀ a ∈ s.db.allocations.rows, s.locks (.batch a.batchId) = some w →
          Claimed calls s a → a.isActive now = true)
        ⟨fun h n hn => by rw [hs] at hn; cases hn; exact h, fun h => h now hs⟩

variable {calls} {s t : StockStore ω}

/-- An allocation promises a batch at most its own units. -/
theorem promise_le_quantity (s : StockStore ω) (k : ℕ) (a : Allocation) :
    promise calls s k a ≤ if a.batchId = k then a.quantity else 0 := by
  unfold promise
  split
  · next h => rw [if_pos h.1]
  · exact Nat.zero_le _

/-- An allocation that counts promises its units. -/
theorem promise_of_counts {k : ℕ} {a : Allocation} (h : Counts calls s a) :
    promise calls s k a = if a.batchId = k then a.quantity else 0 := by
  unfold promise
  by_cases hk : a.batchId = k
  · rw [if_pos ⟨hk, h⟩, if_pos hk]
  · rw [if_neg (fun hc => hk hc.1), if_neg hk]

/-- An allocation that does not count promises nothing. -/
theorem promise_of_not_counts {k : ℕ} {a : Allocation} (h : ¬ Counts calls s a) :
    promise calls s k a = 0 := if_neg (fun hc => h hc.2)

/-- A row promises no more when it counts no more, under rewrites of its status and deadline. -/
theorem promise_mono {k : ℕ} {a a' : Allocation} (hb : a'.batchId = a.batchId)
    (hq : a'.quantity = a.quantity) (h : Counts calls t a' → Counts calls s a) :
    promise calls t k a' ≤ promise calls s k a := by
  by_cases hc : Counts calls t a'
  · rw [promise_of_counts hc, promise_of_counts (h hc), hb, hq]
  · rw [promise_of_not_counts hc]
    exact Nat.zero_le _

/-- Active reservations are promised. -/
theorem activeReserved_le_promised (s : StockStore ω) (k : ℕ) :
    s.db.activeReserved s.clock k ≤ promised calls s k := by
  refine Table.total_mono (fun a _ => ?_)
  unfold Allocation.activeOn
  by_cases h : a.batchId = k ∧ a.isActive s.clock = true
  · rw [if_pos h, promise_of_counts (Or.inl h.2), if_pos h.1]
  · rw [if_neg h]
    exact Nat.zero_le _

/-- On the same rows, promised units only go down with the rows that count. -/
theorem promised_mono (hdb : t.db.allocations = s.db.allocations)
    (h : ∀ a, Counts calls t a → Counts calls s a) (k : ℕ) :
    promised calls t k ≤ promised calls s k := by
  unfold promised
  rw [hdb]
  exact Table.total_mono (fun a _ => promise_mono rfl rfl (h a))

end

/-! ### The history of a batch -/

/-- What a commit makes of the quantity of a batch. -/
def StockEntry.apply (batchPk : ℕ) (quantity : ℤ) : StockEntry → ℤ
  | .set k n => if k = batchPk then n else quantity
  | .take k n => if k = batchPk then quantity - n else quantity

/-- The quantity of a batch after the entries of a log. -/
def replay (batchPk : ℕ) (log : List StockEntry) (quantity : ℤ) : ℤ :=
  log.foldl (StockEntry.apply batchPk) quantity

@[simp] theorem replay_nil (k : ℕ) (q : ℤ) : replay k [] q = q := rfl

/-- Replaying two records in turn. -/
@[simp] theorem replay_append (k : ℕ) (log note : List StockEntry) (q : ℤ) :
    replay k (log ++ note) q = replay k note (replay k log q) := List.foldl_append ..

/-- Picks take from each batch what the dictionary has for it. -/
theorem replay_takes (picks : Dict ℕ ℕ) (k : ℕ) (q : ℤ) :
    replay k (picks.entries.map (fun e => .take e.1 e.2)) q = q - picks.getD k 0 := by
  obtain ⟨es, hnd⟩ := picks
  unfold Dict.getD Dict.get? replay
  -- By induction on the picks; each batch is picked once.
  induction es generalizing q with
  | nil => simp
  | cons e es ih =>
    rw [List.map_cons, List.nodup_cons] at hnd
    rw [List.map_cons, List.foldl_cons, ih _ hnd.2, List.lookup_cons]
    by_cases hk : e.1 = k
    · have hnone : es.lookup k = none := by
        rw [List.lookup_eq_none_iff]
        intro p hp
        rw [bne_iff_ne]
        rintro rfl
        exact hnd.1 (hk ▸ List.mem_map_of_mem hp)
      simp [StockEntry.apply, hk, hnone]
    · have hk' : (k == e.1) = false := by
        rw [beq_eq_false_iff_ne]
        exact fun h => hk h.symm
      simp [StockEntry.apply, hk, hk']

/-! ### Invariant and rely -/

section

variable {ω : Type} (calls : ω → Runtime × StockCall) (start : Db) (strict : Prop)

/-- Every pool holds ACTIVE batches only. -/
def OrderablePools : Prop :=
  ∀ w line batches quantity reservedUntil,
    (calls w).2 = .reserve line batches quantity reservedUntil →
      ∀ b, batches b = true → b.status = .active

/-- Who is consumed is PLACED: nobody reserves for a deadline on its behalf. -/
def PlacedOrders : Prop :=
  ∀ v w orderPk line batches quantity reservedUntil, (calls v).2 = .consume orderPk →
    (calls w).2 = .reserve line batches quantity reservedUntil → line.orderId = orderPk →
      reservedUntil = none

/-- The reservations of the orders that are consumed do not expire. -/
def DurableOrders (db : Db) : Prop :=
  ∀ v orderPk, (calls v).2 = .consume orderPk → ∀ a ∈ db.allocations,
    reservedOf orderPk a = true → a.reservedUntil = none

/-- What the stock transactions keep; when `strict`, then also that a batch with promised units
    is ACTIVE. -/
structure StockInv (s : StockStore ω) : Prop where
  fits : ∀ b ∈ s.db.batches, promised calls s b.pk ≤ b.quantity
  active : strict → ∀ b ∈ s.db.batches, 0 < promised calls s b.pk →
    b.status = .active
  durable : DurableOrders calls s.db
  balanced : ∀ b ∈ s.db.batches, ∃ b₀ ∈ start.batches, b₀.pk = b.pk ∧
    (b.quantity : ℤ) = replay b.pk s.log b₀.quantity

/-- What a worker relies on the others to keep. -/
structure StockRely (w : ω) (s t : StockStore ω) : Prop where
  clock : s.clock ≤ t.clock
  since : t.since w = s.since w
  locks : ∀ r, s.locks r = some w → t.locks r = some w
  batch : ∀ b ∈ s.db.batches, s.locks (.batch b.pk) = some w → b ∈ t.db.batches
  allocation : ∀ a ∈ s.db.allocations, s.locks (.allocation a.pk) = some w → a ∈ t.db.allocations
  promised : ∀ k, s.locks (.batch k) = some w → promised calls t k ≤ promised calls s k

variable {calls start strict} {s t u : StockStore ω} {w : ω}

/-- A worker may rely on nothing having changed. -/
theorem StockRely.refl (w : ω) (s : StockStore ω) : StockRely calls w s s where
  clock := le_rfl
  since := rfl
  locks _ h := h
  batch _ h _ := h
  allocation _ h _ := h
  promised _ _ := le_rfl

/-- What a worker relies on composes over the steps of the others. -/
theorem StockRely.trans (h : StockRely calls w s t) (h' : StockRely calls w t u) :
    StockRely calls w s u where
  clock := h.clock.trans h'.clock
  since := h'.since.trans h.since
  locks r hr := h'.locks r (h.locks r hr)
  batch b hb hr := h'.batch b (h.batch b hb hr) (h.locks _ hr)
  allocation a ha hr := h'.allocation a (h.allocation a ha hr) (h.locks _ hr)
  promised k hk := (h'.promised k (h.locks _ hk)).trans (h.promised k hk)

/-- The rows stay and count no more. -/
theorem StockRely.ofSame (hdb : t.db = s.db) (hclock : s.clock ≤ t.clock)
    (hsince : t.since w = s.since w) (hlocks : ∀ r, s.locks r = some w → t.locks r = some w)
    (hcounts : ∀ a, Counts calls t a → Counts calls s a) : StockRely calls w s t where
  clock := hclock
  since := hsince
  locks := hlocks
  batch _ hb _ := hdb ▸ hb
  allocation _ ha _ := hdb ▸ ha
  promised k _ := promised_mono (congrArg Db.allocations hdb) hcounts k

/-- The same rows and the same log keep the invariant, when no more rows count. -/
theorem StockInv.ofSame (h : StockInv calls start strict s) (hdb : t.db = s.db) (hlog : t.log = s.log)
    (hcounts : ∀ a, Counts calls t a → Counts calls s a) : StockInv calls start strict t where
  fits b hb := (promised_mono (congrArg Db.allocations hdb) hcounts b.pk).trans (h.fits b (hdb ▸ hb))
  active hstrict b hb hpos := h.active hstrict b (hdb ▸ hb)
    (lt_of_lt_of_le hpos (promised_mono (congrArg Db.allocations hdb) hcounts b.pk))
  durable := hdb ▸ h.durable
  balanced := by rw [hdb, hlog]; exact h.balanced

/-- Holds only stop counting as the clock moves on. -/
theorem counts_tick {later : Time} (hle : s.clock ≤ later) (a : Allocation)
    (h : Counts calls (s.tick later) a) : Counts calls s a :=
  h.imp (Allocation.isActive_mono hle) id

/-- What a call claims of an instant is active then. -/
theorem claims_active {call : StockCall} {now : Time} {a : Allocation}
    (h : call.claims (some now) a = true) : a.isActive now = true := by
  cases call <;> simp_all [StockCall.claims]

/-- A worker's own locks disturb nothing it relies on. -/
theorem StockRely.grab (w : ω) (s : StockStore ω) (r : RowId) :
    StockRely calls w s (s.grab w r) := by
  refine .ofSame rfl le_rfl rfl (fun r' h => ?_) (fun _ h => h)
  show Function.update s.locks r (some w) r' = some w
  by_cases hr : r' = r
  · subst hr
    exact Function.update_self ..
  · rwa [Function.update_of_ne hr]

variable [DecidableEq ω]

/-- What a promotion claims when it reads the clock is active then. -/
theorem counts_look (v : ω) (a : Allocation) (h : Counts calls (s.look v) a) :
    Counts calls s a := by
  rcases h with hact | ⟨x, hx⟩
  · exact Or.inl hact
  -- Only the claims of the worker that reads the clock change.
  · by_cases hxv : x = v
    · subst hxv
      have hx : (calls x).2.claims (some ((s.since x).getD s.clock)) a = true := by
        simpa [Store.look] using hx
      cases hs : s.since x with
      | none =>
        rw [hs] at hx
        exact Or.inl (claims_active hx)
      | some now =>
        rw [hs] at hx
        exact Or.inr ⟨x, by rw [hs]; exact hx⟩
    · refine Or.inr ⟨x, ?_⟩
      simpa [Store.look, Function.update_of_ne hxv] using hx

/-- Nothing is claimed that was not when a transaction ends. -/
theorem claimed_release (v : ω) (a : Allocation) (h : Claimed calls (s.release v) a) :
    Claimed calls s a := by
  obtain ⟨x, hx⟩ := h
  by_cases hxv : x = v
  · subst hxv
    have hx : (calls x).2.claims none a = true := by simpa [Store.release] using hx
    cases hcall : (calls x).2 <;> simp [StockCall.claims, hcall] at hx
  · exact ⟨x, by simpa [Store.release, Function.update_of_ne hxv] using hx⟩

/-- Nothing counts that did not when a transaction ends. -/
theorem counts_release (v : ω) (a : Allocation) (h : Counts calls (s.release v) a) :
    Counts calls s a := h.imp id (claimed_release v a)

variable (calls start strict) in
/-- **The discipline.** -/
def stockDiscipline : Discipline RowId Db StockEntry ω where
  inv := StockInv calls start strict
  rely := StockRely calls
  good := Heard calls
  refl := StockRely.refl
  trans := StockRely.trans
  tick hinv hle := ⟨hinv.ofSame rfl rfl (counts_tick hle),
    fun _ => .ofSame rfl hle rfl (fun _ h => h) (counts_tick hle)⟩
  look {s v} hinv := ⟨hinv.ofSame rfl rfl (counts_look v), fun w hne =>
    .ofSame rfl le_rfl (Function.update_of_ne hne ..) (fun _ h => h) (counts_look v)⟩
  grab {s v r} hinv hfree := by
    exact ⟨hinv.ofSame rfl rfl (fun _ h => h), fun w hne => .ofSame rfl le_rfl rfl
      (fun r' h => (Store.locks_grab hfree w r').mpr (Or.inl h)) (fun _ h => h)⟩
  release {s v} hinv := ⟨hinv.ofSame rfl rfl (counts_release v), fun w hne =>
    .ofSame rfl le_rfl (Function.update_of_ne hne ..) (fun r h => (Store.locks_release w r).mpr ⟨h, hne⟩)
      (counts_release v)⟩

end

end SwedeSweets
