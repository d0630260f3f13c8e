import SwedeSweets.Business.Services
import SwedeSweets.Fulfillment.Services

namespace SwedeSweets

open Relational Fallible

/-!
# The pick checklist

The ops portal marks the reserved allocations of a placed order that have been picked.  A
`PickChecklistMark` belongs to one allocation and goes away with it, so an edit, which
rebuilds the reservations, has to carry the marks over
(`OpsPortal.updatePlacedOrderAndPreserveChecklist`).
-/

structure PickChecklistMark where
  pk : ℕ
  allocationId : ℕ
  deriving DecidableEq, Repr

instance : Row PickChecklistMark := ⟨PickChecklistMark.pk⟩

def newMark (a : Allocation) : NewRow PickChecklistMark where
  make pk := ⟨pk, a.pk⟩
  pk_make _ := rfl

/-- The database with the table of the ops portal. -/
structure OpsDb where
  db : Db
  marks : Table PickChecklistMark
  references : ∀ m ∈ marks, ∃ a ∈ db.allocations, a.pk = m.allocationId
  oneToOne : ∀ m ∈ marks, ∀ m' ∈ marks, m.allocationId = m'.allocationId → m = m'

namespace OpsDb

variable {s s' : OpsDb}

/-- `pick_checklist_mark__isnull=False`. -/
def marked (s : OpsDb) (a : Allocation) : Bool :=
  s.marks.rows.any (fun m => m.allocationId = a.pk)

/-- An allocation is marked when a mark names it. -/
theorem marked_iff {a : Allocation} :
    s.marked a = true ↔ ∃ m ∈ s.marks, m.allocationId = a.pk := by
  unfold marked
  rw [List.any_eq_true]
  exact exists_congr (fun m => and_congr_right (fun _ => decide_eq_true_iff))

/-- Other tables; the marks of allocations that are gone go with them. -/
def cascade (s : OpsDb) (db : Db) : OpsDb where
  db := db
  marks := s.marks.delete (fun m => (db.allocations.get? m.allocationId).isNone)
  references m hm := by
    obtain ⟨-, hsome⟩ := Table.mem_delete.mp hm
    cases hget : db.allocations.get? m.allocationId with
    | none => simp [hget] at hsome
    | some a => exact ⟨a, Table.get?_eq_some.mp hget⟩
  oneToOne m hm m' hm' := s.oneToOne m (Table.mem_delete.mp hm).1 m' (Table.mem_delete.mp hm').1

/-- Marks deleted by a query. -/
def unmark (s : OpsDb) (p : PickChecklistMark → Bool) : OpsDb where
  db := s.db
  marks := s.marks.delete p
  references m hm := s.references m (Table.mem_delete.mp hm).1
  oneToOne m hm m' hm' := s.oneToOne m (Table.mem_delete.mp hm).1 m' (Table.mem_delete.mp hm').1

/-- `PickChecklistMark(allocation=...)`; an allocation has one mark at most. -/
def mark (s : OpsDb) (a : Allocation) : Result OpsDb :=
  if h : s.db.allocations.get? a.pk = some a ∧ s.marked a = false then
    return {
      db := s.db
      marks := s.marks.insert (newMark a)
      references := by
        intro m hm
        rcases Table.mem_insert.mp hm with hm | rfl
        · exact s.references m hm
        · exact ⟨a, (Table.get?_eq_some.mp h.1).1, rfl⟩
      oneToOne := by
        have hnone : ∀ m ∈ s.marks, m.allocationId ≠ a.pk := fun m hm hma => by
          have hmarked := marked_iff.mpr ⟨m, hm, hma⟩
          rw [h.2] at hmarked
          cases hmarked
        intro m hm m' hm' heq
        rcases Table.mem_insert.mp hm with hm | rfl <;> rcases Table.mem_insert.mp hm' with hm' | rfl
        · exact s.oneToOne m hm m' hm' heq
        · exact absurd heq (hnone m hm)
        · exact absurd heq.symm (hnone m' hm')
        · rfl }
  else throw (.integrityError "ops_portal_pickchecklistmark_allocation_id_key")

@[simp] theorem cascade_db (s : OpsDb) (db : Db) : (s.cascade db).db = db := rfl

/-- What is there afterwards keeps its mark. -/
theorem marked_cascade {db : Db} {a : Allocation} (ha : a ∈ db.allocations) :
    (s.cascade db).marked a = true ↔ s.marked a = true := by
  rw [marked_iff, marked_iff]
  refine exists_congr (fun m => ?_)
  show m ∈ s.marks.delete _ ∧ _ ↔ _
  rw [Table.mem_delete]
  constructor
  · rintro ⟨⟨hm, -⟩, hma⟩
    exact ⟨hm, hma⟩
  · rintro ⟨hm, hma⟩
    have hget : db.allocations.get? m.allocationId = some a :=
      Table.get?_eq_some.mpr ⟨ha, hma.symm⟩
    exact ⟨⟨hm, by rw [hget]; rfl⟩, hma⟩

/-- Marking an allocation marks it and leaves all other marks. -/
theorem mark_eq_ok {a : Allocation} (h : s.mark a = .ok s') :
    s'.db = s.db ∧ ∀ x, s'.marked x = true ↔ s.marked x = true ∨ x.pk = a.pk := by
  unfold mark at h
  split at h
  · rw [pure_eq_ok] at h
    subst h
    refine ⟨rfl, fun x => ?_⟩
    simp only [marked_iff, Table.mem_insert]
    constructor
    · rintro ⟨m, hm | rfl, hmx⟩
      · exact Or.inl ⟨m, hm, hmx⟩
      · exact Or.inr hmx.symm
    · rintro (⟨m, hm, hmx⟩ | hxa)
      · exact ⟨m, Or.inl hm, hmx⟩
      · exact ⟨_, Or.inr rfl, hxa.symm⟩
  · cases h

/-- `bulk_create` marks the allocations it is given. -/
theorem markAll_eq_ok {as : List Allocation} (h : as.foldlM mark s = .ok s') :
    s'.db = s.db ∧ ∀ x, s'.marked x = true ↔ s.marked x = true ∨ ∃ a ∈ as, x.pk = a.pk := by
  induction as generalizing s with
  | nil =>
    simp only [List.foldlM_nil, pure_eq_ok] at h
    subst h
    exact ⟨rfl, fun x => by simp⟩
  | cons a as ih =>
    simp only [List.foldlM_cons, bind_eq_ok] at h
    obtain ⟨t, hmark, hrest⟩ := h
    obtain ⟨hdb, hmarked⟩ := mark_eq_ok hmark
    obtain ⟨hdb', hmarked'⟩ := ih hrest
    refine ⟨hdb'.trans hdb, fun x => ?_⟩
    rw [hmarked', hmarked, List.exists_mem_cons_iff, or_assoc]

end OpsDb

/-! ### Services -/

namespace OpsPortal

/-- Toggle the mark of a reserved allocation of the order; whether it is checked now. -/
def toggleChecklistMark (s : OpsDb) (orderPk allocationId : ℕ) : Result (OpsDb × Bool) := do
  let allocation ← orRaise ((s.db.orderAllocations orderPk).find? (fun a =>
      a.pk = allocationId && a.status = .reserved))
    (.valueError ("allocation " ++ toString allocationId
      ++ " is not a reserved allocation on order " ++ toString orderPk))
  if s.marked allocation then
    return (s.unmark (fun m => m.allocationId = allocationId), false)
  else
    let s ← s.mark allocation
    return (s, true)

/-- Pack an order, then clear its checklist. -/
def packOrderAndClearChecklist (rt : Runtime) (s : OpsDb) (orderPk : ℕ) (user : Option ℕ) :
    Result OpsDb := do
  let db ← Fulfillment.packOrder rt s.db orderPk user
  let s := s.cascade db
  return s.unmark (fun m => (s.db.orderAllocations orderPk).any (fun a => a.pk = m.allocationId))

/-- The quantity asked for under an offer; a later line for the offer overwrites an earlier
    one. -/
def incomingQuantity (resolvedLines : List ResolvedOrderLine) (offerId : ℕ) : Option ℤ :=
  (resolvedLines.map (fun line => (line.commercialOffer.pk, line.quantityInUnits))).reverse.lookup
    offerId

/-- The line keeps its quantity. -/
def isUnchanged (resolvedLines : List ResolvedOrderLine) (line : OrderLine) : Bool :=
  incomingQuantity resolvedLines line.commercialOfferId = some (line.quantityInUnits : ℤ)

def unchangedLineIds (s : OpsDb) (orderPk : ℕ) (resolvedLines : List ResolvedOrderLine) : List ℕ :=
  ((s.db.orderLines orderPk).filter (isUnchanged resolvedLines)).map OrderLine.pk

/-- The line and the batch of every marked allocation of an unchanged line. -/
def checkedKeys (s : OpsDb) (orderPk : ℕ) (resolvedLines : List ResolvedOrderLine) :
    List (ℕ × ℕ) :=
  ((s.db.allocations.select (reservedOf orderPk)).filter (fun a =>
    s.marked a && (unchangedLineIds s orderPk resolvedLines).contains a.orderLineId)).map
      (fun a => (a.orderLineId, a.batchId))

/-- Edit a placed order, preserving marks for untouched order lines. -/
def updatePlacedOrderAndPreserveChecklist (rt : Runtime) (s : OpsDb) (orderPk : ℕ)
    (lines : List BusinessOfferLineInput) (user : Option ℕ) : Result OpsDb := do
  let resolvedLines ← resolveBusinessOfferLines s.db lines
  let checkedKeys := checkedKeys s orderPk resolvedLines
  let db ← SwedeSweets.updatePlacedOrder rt s.db orderPk resolvedLines
    clearOrderReservationsBeforeLineReplacement (prepareBusinessOrderForPlacement rt) user
  let s := s.cascade db
  if checkedKeys = [] then return s
  let newAllocations := s.db.allocations.select (reservedOf orderPk)
  (newAllocations.filter (fun a => checkedKeys.contains (a.orderLineId, a.batchId))).foldlM
    OpsDb.mark s

/-- What a successful edit does: it is the edit of the ops portal, and what it marks is what
    was marked before and the reservations under a checked key. -/
theorem preserve_eq_ok {rt : Runtime} {s s' : OpsDb} {k : ℕ}
    {lines : List BusinessOfferLineInput} {user : Option ℕ}
    (h : updatePlacedOrderAndPreserveChecklist rt s k lines user = .ok s') :
    ∃ resolved, resolveBusinessOfferLines s.db lines = .ok resolved ∧
      SwedeSweets.updatePlacedOrder rt s.db k resolved clearOrderReservationsBeforeLineReplacement
        (prepareBusinessOrderForPlacement rt) user = .ok s'.db ∧
      ∀ x ∈ s'.db.allocations, s'.marked x = true ↔ s.marked x = true
        ∨ (reservedOf k x = true ∧ (x.orderLineId, x.batchId) ∈ checkedKeys s k resolved) := by
  unfold updatePlacedOrderAndPreserveChecklist at h
  simp only [bind_eq_ok] at h
  obtain ⟨resolved, hresolved, db, hdb, h⟩ := h
  refine ⟨resolved, hresolved, ?_⟩
  -- Without checked keys nothing is marked again.
  by_cases hnone : checkedKeys s k resolved = []
  · rw [if_pos hnone, pure_eq_ok] at h
    subst h
    refine ⟨hdb, fun x hx => ?_⟩
    have hx : x ∈ db.allocations := hx
    rw [OpsDb.marked_cascade hx, hnone]
    simp
  · rw [if_neg hnone] at h
    obtain ⟨hdb', hmarked⟩ := OpsDb.markAll_eq_ok h
    have hdb' : s'.db = db := hdb'
    refine ⟨hdb' ▸ hdb, fun x hx => ?_⟩
    rw [hdb'] at hx
    rw [hmarked, OpsDb.marked_cascade hx]
    refine or_congr_right ?_
    simp only [List.mem_filter, Table.mem_select, OpsDb.cascade_db, List.contains_iff_mem]
    -- Allocations are identified by their keys.
    constructor
    · rintro ⟨a, ⟨⟨ha, hres⟩, hkey⟩, hxa⟩
      obtain rfl : x = a := Table.eq_of_pk_eq (t := db.allocations) hx ha hxa
      exact ⟨hres, hkey⟩
    · rintro ⟨hres, hkey⟩
      exact ⟨x, ⟨⟨hx, hres⟩, hkey⟩, rfl⟩

end OpsPortal

end SwedeSweets
