import SwedeSweets.Concurrency.BasketTransactions
import SwedeSweets.Guarantees.OrderLines
import Mathlib.Algebra.BigOperators.Group.Finset.Basic

namespace SwedeSweets

open Relational Fallible Transition Interleaving ReadCommitted

/-!
# Concurrent additions to one draft

Any number of workers add catalog offers to the draft of one customer.  The turn
(`Business.basketTurn`) is the row of the draft, or the entry in the unique index while there is
no draft; whoever has it finds the basket as it left it.

`Business.BasketKept` is the invariant: one draft at most, the lines of an order one for each
offer, and the units of each offer what the commits in the log make of them.
-/

namespace Business

variable {ω : Type}

/-- The explicit lines of an offer on the customer's drafts. -/
def explicitLines (db : Db) (customer k : ℕ) : List OrderLine :=
  db.lines.select (fun l => ((db.draftsOf customer).map Order.pk).contains l.orderId
    && l.businessOfferSelection = some (some k))

/-- The units that the calls in a log have added of an offer. -/
def addedUnits (calls : ω → Runtime × CatalogCall) (log : List ω) (k : ℕ) : ℤ :=
  (log.map (fun w => if (calls w).2.commercialPriceId = k then (calls w).2.quantity else 0)).sum

/-- The basket is what it was at the start and what the calls in the log have added. -/
structure BasketKept (customer : ℕ) (calls : ω → Runtime × CatalogCall) (start db : Db)
    (log : List ω) : Prop where
  lines : OneLinePerOffer db
  drafts : (db.draftsOf customer).length ≤ 1
  units : ∀ k, lineQuantity (explicitLines db customer k)
    = lineQuantity (explicitLines start customer k) + addedUnits calls log k
  positive : ∀ w ∈ log, 0 < (calls w).2.quantity

/-- The row that whoever writes to the basket has locked. -/
def basketTurn (customer : ℕ) (db : Db) : BasketRow :=
  match db.draftsOf customer with
  | [] => .draftOf customer
  | draft :: _ => .order draft.pk

/-! ### The lines of the basket -/

section

variable {db db' : Db} {customer k : ℕ}

/-- The drafts of a customer. -/
theorem mem_draftsOf {o : Order} :
    o ∈ db.draftsOf customer ↔ o ∈ db.orders ∧ isBusinessDraftOf customer o = true :=
  Table.mem_select

/-- The only draft. -/
theorem draftsOf_eq_singleton (hone : (db.draftsOf customer).length ≤ 1) {o : Order}
    (ho : o ∈ db.draftsOf customer) : db.draftsOf customer = [o] := by
  obtain ⟨x, hx⟩ := List.length_eq_one_iff.mp
    (le_antisymm hone (List.length_pos_of_mem ho))
  rw [hx] at ho ⊢
  rw [List.mem_singleton.mp ho]

/-- The lines of the customer's drafts that select the offer. -/
theorem mem_explicitLines {l : OrderLine} :
    l ∈ explicitLines db customer k ↔ l ∈ db.lines
      ∧ (∃ o ∈ db.draftsOf customer, o.pk = l.orderId)
      ∧ l.businessOfferSelection = some (some k) := by
  unfold explicitLines
  simp [Table.mem_select]

/-- The only explicit line of the offer. -/
theorem explicitLines_eq_singleton (h : OneLinePerOffer db)
    (hone : (db.draftsOf customer).length ≤ 1) {l : OrderLine}
    (hl : l ∈ explicitLines db customer k) : explicitLines db customer k = [l] := by
  obtain ⟨hlmem, ⟨o, ho, hol⟩, hls⟩ := mem_explicitLines.mp hl
  refine Table.select_eq_singleton hlmem (fun x hxmem => ⟨fun hx => ?_, ?_⟩)
  · obtain ⟨-, ⟨o', ho', hox⟩, hxs⟩ := mem_explicitLines.mp (Table.mem_select.mpr ⟨hxmem, hx⟩)
    rw [draftsOf_eq_singleton hone ho, List.mem_singleton] at ho'
    have hoffer : x.commercialOfferId = l.commercialOfferId :=
      (Option.some.inj (h.selection x hxmem _ hxs)).symm.trans
        (Option.some.inj (h.selection l hlmem _ hls))
    refine h.unique x hxmem l hlmem (hox.symm.trans ((congrArg Order.pk ho').trans hol)) hoffer ?_
    simp [OrderLine.isExplicit, hls, hxs]
  · rintro rfl
    exact (Table.mem_select.mp hl).2

/-- What one more committed call adds. -/
@[simp] theorem addedUnits_append (calls : ω → Runtime × CatalogCall) (log : List ω) (w : ω)
    (k : ℕ) : addedUnits calls (log ++ [w]) k = addedUnits calls log k
      + if (calls w).2.commercialPriceId = k then (calls w).2.quantity else 0 := by
  simp [addedUnits]

/-- An offer without an explicit line of its product on the draft is not in the basket. -/
theorem explicitLines_eq_nil (h : OneLinePerOffer db) (hone : (db.draftsOf customer).length ≤ 1)
    {o : Order} (ho : o ∈ db.draftsOf customer) {product : Product} {offer : CommercialPrice}
    (hoffer : offer ∈ db.commercialPrices) (hpk : offer.pk = k)
    (hproduct : offer.productId = product.pk) (habsent : ∀ l, ¬ Explicit db o product k l) :
    explicitLines db customer k = [] := by
  rw [List.eq_nil_iff_forall_not_mem]
  intro l hl
  obtain ⟨hlmem, ⟨o', ho', hol⟩, hls⟩ := mem_explicitLines.mp hl
  rw [draftsOf_eq_singleton hone ho, List.mem_singleton] at ho'
  have hchosen : k = l.commercialOfferId := Option.some.inj (h.selection l hlmem _ hls)
  refine habsent l ⟨Db.mem_orderLines.mpr ⟨hlmem, ?_⟩, ?_, hls⟩
  · rw [← hol, ho']
  · exact (h.product l hlmem offer hoffer (hpk.trans hchosen)).symm.trans hproduct

/-- **One addition.** The line of the offer gains the units, and no other offer changes. -/
theorem lineQuantity_addition (h : OneLinePerOffer db)
    (hone : (db.draftsOf customer).length ≤ 1) {o : Order} (ho : o ∈ db.draftsOf customer)
    {product : Product} {quantity availableUnits : ℤ}
    (hadd : CatalogAddition db o product k quantity availableUnits db') (j : ℕ) :
    lineQuantity (explicitLines db' customer j)
      = lineQuantity (explicitLines db customer j) + if k = j then quantity else 0 := by
  have h' : OneLinePerOffer db' := h.addition (mem_draftsOf.mp ho).1 hadd
  -- a line for the offer grows, or there was none and one is added
  cases hadd with
  | @resized l l' found same total available =>
    obtain ⟨hl, hlo⟩ := Db.mem_orderLines.mp found.1
    by_cases hj : k = j
    · subst hj
      have hmem : l ∈ explicitLines db customer k :=
        mem_explicitLines.mpr ⟨hl, ⟨o, ho, hlo.symm⟩, found.2.2⟩
      have hmem' : l' ∈ explicitLines { db with lines := db.lines.put l' } customer k :=
        mem_explicitLines.mpr ⟨(Table.mem_put ⟨l, hl, same.pk.symm⟩).mpr (Or.inl rfl),
          ⟨o, ho, hlo.symm.trans same.order.symm⟩, same.selection.trans found.2.2⟩
      rw [explicitLines_eq_singleton h hone hmem, explicitLines_eq_singleton h' hone hmem']
      simp [total]
    · have hne : l.businessOfferSelection ≠ some (some j) := by
        rw [found.2.2]
        simpa using hj
      have hsame : explicitLines { db with lines := db.lines.put l' } customer j
          = explicitLines db customer j :=
        Table.select_put_of_disjoint hl same.pk.symm (by simp [hne]) (by simp [same.selection, hne])
      rw [hsame, if_neg hj, add_zero]
  | @inserted offer x absent known chosen ofProduct order line total available =>
    by_cases hj : k = j
    · subst hj
      have hdraft : x.orderId ∈ (db.draftsOf customer).map Order.pk :=
        List.mem_map.mpr ⟨o, ho, order.symm⟩
      -- the new line comes last, and it is the only one
      have hlast : explicitLines { db with lines := db.lines.insert (explicitRow x k) } customer k
          = explicitLines db customer k ++ [(explicitRow x k).make db.lines.next] := by
        refine Table.select_insert_of ?_
        simp only [Bool.and_eq_true, List.contains_iff_mem, decide_eq_true_eq]
        exact ⟨hdraft, rfl⟩
      rw [hlast, explicitLines_eq_nil h hone ho known chosen ofProduct absent, List.nil_append,
        lineQuantity_singleton, lineQuantity_nil, if_pos rfl, zero_add]
      exact total
    · have hsame : explicitLines { db with lines := db.lines.insert (explicitRow x k) } customer j
          = explicitLines db customer j := by
        have hsel : ((explicitRow x k).make db.lines.next).businessOfferSelection
          = some (some k) := rfl
        exact Table.select_insert_of_disjoint (by simp [hsel, hj])
      rw [hsame, if_neg hj, add_zero]

/-- Without a draft there is no line, and a new draft has none. -/
theorem explicitLines_opened (h : OneLinePerOffer db) (hnone : db.draftsOf customer = [])
    {row : NewRow Order} : explicitLines { db with orders := db.orders.insert row } customer k = []
      ∧ explicitLines db customer k = [] := by
  refine ⟨?_, ?_⟩ <;> rw [List.eq_nil_iff_forall_not_mem] <;> intro l hl
  · obtain ⟨hlmem, ⟨o, ho, hol⟩, -⟩ := mem_explicitLines.mp hl
    have hlmem : l ∈ db.lines := hlmem
    obtain ⟨ho, hdraft⟩ := mem_draftsOf.mp ho
    -- there was no draft, and the new one has no lines
    rcases Table.mem_insert.mp ho with ho | rfl
    · have hmem : o ∈ db.draftsOf customer := mem_draftsOf.mpr ⟨ho, hdraft⟩
      rw [hnone] at hmem
      cases hmem
    · have hline : l ∈ db.orderLines db.orders.next :=
        Db.mem_orderLines.mpr ⟨hlmem, hol.symm.trans (row.pk_make _)⟩
      rw [h.noLines] at hline
      cases hline
  · obtain ⟨-, ⟨o, ho, -⟩, -⟩ := mem_explicitLines.mp hl
    rw [hnone] at ho
    cases ho

end

/-! ### One call -/

section

variable {customer : ℕ} {calls : ω → Runtime × CatalogCall} {start db db' : Db} {log note : List ω}

/-- A draft is opened: nothing is on it. -/
theorem BasketKept.opened (h : BasketKept customer calls start db log)
    (hnone : db.draftsOf customer = []) (rt : Runtime) :
    let row := newOrder rt .business .eur (some customer)
    BasketKept customer calls start { db with orders := db.orders.insert row } log
      ∧ row.make db.orders.next ∈ ({ db with orders := db.orders.insert row } : Db).draftsOf customer := by
  intro row
  -- the new draft is the only one
  have hdrafts : ({ db with orders := db.orders.insert row } : Db).draftsOf customer
      = [row.make db.orders.next] := by
    have hselect := Table.select_insert db.orders row (isBusinessDraftOf customer)
    have hnone : db.orders.select (isBusinessDraftOf customer) = [] := hnone
    rw [hnone, List.nil_append] at hselect
    refine hselect.trans (List.filter_eq_self.mpr (fun o ho => ?_))
    rw [List.mem_singleton.mp ho]
    simp [row, isBusinessDraftOf, newOrder]
  refine ⟨⟨h.lines.frame (fun x hx => ⟨x, Table.mem_insert.mpr (Or.inl hx), rfl⟩) rfl rfl, ?_,
    fun k => ?_, h.positive⟩, ?_⟩
  · rw [hdrafts]
    simp
  · have hnothing : explicitLines { db with orders := db.orders.insert row } customer k = []
        ∧ explicitLines db customer k = [] := explicitLines_opened h.lines hnone
    obtain ⟨hopened, hbefore⟩ := hnothing
    rw [hopened, ← hbefore]
    exact h.units k
  · rw [hdrafts]
    exact List.mem_singleton_self _

/-- The offer is added to the draft, and the worker signs. -/
theorem BasketKept.added (h : BasketKept customer calls start db log) {o : Order} {w : ω}
    (ho : o ∈ db.draftsOf customer) {offer : CatalogOffer} {times : ℕ → Prop}
    (hpos : 0 < (calls w).2.quantity) (hpk : offer.commercialPriceId = (calls w).2.commercialPriceId)
    (hout : (addOfferTx (calls w).2 offer o.pk (.commit [w])).Outcome times db db' note) :
    BasketKept customer calls start db' (log ++ note) := by
  rw [outcome_addOffer (mem_draftsOf.mp ho).1] at hout
  obtain ⟨db₁, hadd, rfl, rfl⟩ := hout
  have haddition := addOffer_eq_ok hpos hpk hadd
  have hquantity := lineQuantity_addition h.lines h.drafts ho haddition
  refine ⟨h.lines.addition (mem_draftsOf.mp ho).1 haddition, ?_, fun k => ?_, fun v hv => ?_⟩
  -- adding an offer leaves the drafts alone
  · have horders : db₁.orders = db.orders := by cases haddition <;> rfl
    show (db₁.orders.select _).length ≤ 1
    rw [horders]
    exact h.drafts
  · rw [hquantity, h.units k, addedUnits_append, add_assoc]
  · rcases List.mem_append.mp hv with hv | hv
    · exact h.positive v hv
    · rw [List.mem_singleton.mp hv]
      exact hpos

/-- A lock on an order returns the row, when it is a draft of the customer. -/
theorem lockedDraft_cases (db : Db) (pk : ℕ) : lockedDraft customer (.order pk) db = []
    ∨ ∃ o ∈ db.draftsOf customer, o.pk = pk ∧ lockedDraft customer (.order pk) db = [o] := by
  show (db.orders.get? pk).toList.filter _ = [] ∨ ∃ o ∈ _, _ ∧ (db.orders.get? pk).toList.filter _ = _
  cases hget : db.orders.get? pk with
  | none => exact Or.inl rfl
  | some o =>
    obtain ⟨ho, hpk⟩ := Table.get?_eq_some.mp hget
    by_cases hdraft : isBusinessDraftOf customer o = true
    · exact Or.inr ⟨o, mem_draftsOf.mpr ⟨ho, hdraft⟩, hpk, by simp [hdraft]⟩
    · exact Or.inl (by simp [hdraft])

/-- The turn of a worker that has locked the draft. -/
theorem basketTurn_of_mem (hone : (db.draftsOf customer).length ≤ 1) {o : Order}
    (ho : o ∈ db.draftsOf customer) : basketTurn customer db = .order o.pk := by
  unfold basketTurn
  rw [draftsOf_eq_singleton hone ho]

end

/-! ### Taking the turn -/

section

variable [DecidableEq ω] {customer : ℕ} {calls : ω → Runtime × CatalogCall} {start : Db} {w : ω}

/-- The discipline of the workers on one basket. -/
abbrev basketDiscipline (customer : ℕ) (calls : ω → Runtime × CatalogCall) (start : Db) :
    Discipline BasketRow Db ω ω := turns (basketTurn customer) (BasketKept customer calls start)

/-- A query for a draft finds none, or locks the one there is and takes the turn. -/
theorem safe_lockDrafts {rows : List Order → List Order} {k : List Order → BasketTx ω}
    {s : Store BasketRow Db ω ω} (hlen : ∀ drafts, (rows drafts).length ≤ drafts.length)
    (hfound : ∀ t o, (basketDiscipline customer calls start).inv t →
      t.locks (basketTurn customer t.db) = some w → o ∈ t.db.draftsOf customer →
      (basketDiscipline customer calls start).Safe w (k [o]) id t)
    (hnone : ∀ t, (basketDiscipline customer calls start).Safe w (k []) id t) :
    (basketDiscipline customer calls start).Safe w (lockDraftsTx customer rows k) id s := by
  intro t ht
  have hone : (rows (t.db.draftsOf customer)).length ≤ 1 :=
    (hlen _).trans ht.inv.drafts
  show (basketDiscipline customer calls start).Safe w (.lockRows (lockedDraft customer)
    ((rows (t.db.draftsOf customer)).map (fun o => .order o.pk)) [] k) id t
  -- no draft, or one; two are excluded
  match hfound' : rows (t.db.draftsOf customer) with
  | [] => exact hnone t
  | _ :: _ :: _ =>
    rw [hfound'] at hone
    simp at hone
  | [o] =>
    intro u hu hfree
    show (basketDiscipline customer calls start).Safe w (k ([] ++ lockedDraft customer (.order o.pk)
      u.db)) id (u.grab w (.order o.pk))
    rcases lockedDraft_cases u.db o.pk with hnot | ⟨o', ho', hpk, hlocked⟩
    · rw [hnot]
      exact hnone _
    · -- the row that was locked is the draft
      have hturn : basketTurn customer u.db = .order o.pk :=
        (basketTurn_of_mem hu.inv.drafts ho').trans (congrArg BasketRow.order hpk)
      rw [hlocked]
      exact hfound (u.grab w (.order o.pk)) o' hu.inv (turn_of_grab hfree hturn) ho'

/-- At most one draft is taken. -/
theorem length_firstCreated (drafts : List Order) :
    (firstCreated drafts).length ≤ drafts.length := by
  unfold firstCreated
  rw [List.length_take, List.length_insertionSort]
  exact min_le_right ..

/-- **One worker.** -/
theorem safe_addCatalogOffer (s : Store BasketRow Db ω ω) :
    (basketDiscipline customer calls start).Safe w
      (addCatalogOfferTx (calls w).1 customer (calls w).2 w) id s := by
  refine Discipline.safe_attempt (fun _ hpos => ?_)
  rw [require_eq_ok] at hpos
  intro _ _ _ _
  refine Discipline.safe_attempt (fun row _ => Discipline.safe_attempt (fun offer hoffer => ?_))
  have hpk := getCatalogOffer_eq_ok hoffer
  -- with the turn, the rest is what it is alone
  have hrest : ∀ (t : Store BasketRow Db ω ω) (o : Order),
      BasketKept customer calls start t.db t.log → t.locks (basketTurn customer t.db) = some w →
      o ∈ t.db.draftsOf customer → (basketDiscipline customer calls start).Safe w
        (addOfferTx (calls w).2 offer o.pk (.commit [w])) id t :=
    fun t o hinv hturn ho => safe_of_turn hturn (fun _ _ hout => hinv.added ho hpos hpk hout)
  refine safe_lockDrafts length_firstCreated hrest (fun _ => ?_)
  -- no draft was found: one is inserted, or another worker has been faster
  intro _ _ u hu hfree
  refine ⟨fun htrue => ?_, fun _ => ?_⟩
  · have hnone : u.db.draftsOf customer = [] := of_decide_eq_true htrue
    have hturn : basketTurn customer u.db = .draftOf customer := by
      unfold basketTurn
      rw [hnone]
    refine safe_of_turn (turn_of_grab hfree hturn) (fun db' note hout => ?_)
    obtain ⟨hkept, hmem⟩ := BasketKept.opened hu.inv hnone _
    exact hkept.added hmem hpos hpk hout
  · exact safe_lockDrafts (fun _ => le_rfl) hrest (fun _ => trivial)

omit [DecidableEq ω] in
/-- The worker signs its commit. -/
theorem signs_addCatalogOffer : (addCatalogOfferTx (calls w).1 customer (calls w).2 w).Signs w := by
  -- every way through the transaction ends with a commit that names the worker
  have hset : ∀ {orderPk lineId : ℕ} {quantity : ℤ},
      (setLineQuantityTx orderPk lineId quantity (.commit [w]) : BasketTx ω).Signs w :=
    fun _ => Tx.signs_attempt (fun _ => Tx.signs_attempt (fun _ => Tx.signs_attempt (fun _ _ =>
      Tx.signs_attempt (fun _ => Tx.signs_attempt (fun _ => rfl)))))
  have hline : ∀ {orderPk k : ℕ} {line : ResolvedOrderLine},
      (addLineTx orderPk line k (.commit [w]) : BasketTx ω).Signs w :=
    fun _ => Tx.signs_attempt (fun _ => Tx.signs_attempt (fun _ => Tx.signs_attempt (fun _ =>
      Tx.signs_attempt (fun _ => Tx.signs_attempt (fun _ _ => rfl)))))
  have hoffer : ∀ (offer : CatalogOffer) (orderPk : ℕ),
      (addOfferTx (calls w).2 offer orderPk (.commit [w]) : BasketTx ω).Signs w := by
    intro offer orderPk db
    refine Tx.signs_attempt (fun order db => Tx.signs_attempt (fun _ db' =>
      Tx.signs_attempt (fun _ => ?_)))
    cases findLineForOffer db order (calls w).2.product (calls w).2.commercialPriceId with
    | some line => exact hset
    | none => exact fun _ => Tx.signs_attempt (fun _ => hline)
  have hinsert : ∀ offer : CatalogOffer, (insertDraftTx (calls w).1 customer
      (fun order => addOfferTx (calls w).2 offer order.pk (.commit [w])) : BasketTx ω).Signs w :=
    fun offer _ => ⟨fun _ => hoffer offer _, fun _ => Tx.signs_lockRows
      (fun _ => Tx.signs_attempt (fun _ => hoffer offer _)) _ _⟩
  refine Tx.signs_attempt (fun _ _ _ => Tx.signs_attempt (fun _ => Tx.signs_attempt (fun offer _ =>
    Tx.signs_lockRows (fun drafts => ?_) _ _)))
  cases drafts with
  | nil => exact hinsert offer
  | cons draft _ => exact hoffer offer draft.pk

end

/-! ### Runs -/

abbrev BasketPool (ω : Type) := Pool (Store BasketRow Db ω ω) (Progress BasketRow Db Error ω) ω

/-- All workers are about to begin, and nothing is locked. -/
def basketStart (customer : ℕ) (calls : ω → Runtime × CatalogCall) (now : Time) (db : Db) :
    BasketPool ω :=
  ⟨⟨now, db, fun _ => none, fun _ => none, []⟩,
    fun w => .running id (addCatalogOfferTx (calls w).1 customer (calls w).2 w)⟩

/-- One step of some worker, or of the clock. -/
abbrev BasketStep [DecidableEq ω] : BasketPool ω → Move ω → BasketPool ω → Prop :=
  Step (transactions BasketRow Db Error ω ω)

/-- One draft at most, and on it one explicit line of each offer that was added, with the units it
    had and those of the calls that have been committed. -/
structure BasketAddsUp [Fintype ω] (customer : ℕ) (calls : ω → Runtime × CatalogCall) (start : Db)
    (t : BasketPool ω) : Prop where
  drafts : (t.shared.db.draftsOf customer).length ≤ 1
  line : ∀ w, t.locals w = .committed → ∃ l,
    explicitLines t.shared.db customer (calls w).2.commercialPriceId = [l]
      ∧ (l.quantityInUnits : ℤ)
        = lineQuantity (explicitLines start customer (calls w).2.commercialPriceId)
          + ∑ v with (t.locals v).isCommitted = true,
            if (calls v).2.commercialPriceId = (calls w).2.commercialPriceId
            then (calls v).2.quantity else 0

/-- **Runs.** Along every interleaving the basket adds up. -/
theorem basketAddsUp_of_run [Fintype ω] [DecidableEq ω] {customer : ℕ}
    {calls : ω → Runtime × CatalogCall} {now : Time} {db : Db} {t : BasketPool ω}
    {ms : List (Move ω)} (hlines : OneLinePerOffer db) (hone : (db.draftsOf customer).length ≤ 1)
    (h : Run BasketStep (basketStart customer calls now db) ms t) :
    BasketAddsUp customer calls db t := by
  have hstart : BasketKept customer calls db db [] :=
    ⟨hlines, hone, fun k => by simp [addedUnits], fun w hw => absurd hw List.not_mem_nil⟩
  have hkept : BasketKept customer calls db t.shared.db t.shared.log :=
    turns_sound h hstart (fun _ => rfl) (fun w => safe_addCatalogOffer _)
  obtain ⟨hnd, hmem⟩ := log_of_signed h rfl (fun _ => rfl) (fun w => signs_addCatalogOffer)
  refine ⟨hkept.drafts, fun w hw => ?_⟩
  have hunits := hkept.units (calls w).2.commercialPriceId
  have hadded := hkept.positive w ((hmem w).mpr hw)
  -- the units of the committed call are on a line
  have hpos : 0 < addedUnits calls t.shared.log (calls w).2.commercialPriceId := by
    unfold addedUnits
    refine lt_of_lt_of_le hadded (le_trans (le_of_eq (if_pos rfl).symm)
      (List.single_le_sum (fun x hx => ?_) _ (List.mem_map_of_mem ((hmem w).mpr hw))))
    obtain ⟨v, hv, rfl⟩ := List.mem_map.mp hx
    split
    · exact le_of_lt (hkept.positive v hv)
    · exact le_rfl
  have hold := lineQuantity_nonneg (explicitLines db customer (calls w).2.commercialPriceId)
  have hne : explicitLines t.shared.db customer (calls w).2.commercialPriceId ≠ [] := by
    intro hnil
    rw [hnil, lineQuantity_nil] at hunits
    omega
  obtain ⟨l, hl⟩ := List.exists_mem_of_ne_nil _ hne
  have hsingle := explicitLines_eq_singleton hkept.lines hkept.drafts hl
  refine ⟨l, hsingle, ?_⟩
  rw [← lineQuantity_singleton l, ← hsingle, hunits, addedUnits,
    sum_log hnd hmem (fun v => if (calls v).2.commercialPriceId = (calls w).2.commercialPriceId
      then (calls v).2.quantity else 0)]

end Business

end SwedeSweets
