import SwedeSweets.Business.DraftEffects
import SwedeSweets.Business.Resolution
import SwedeSweets.Invariants.Lifecycle

namespace SwedeSweets

open Relational Fallible

/-!
# One explicit and one legacy line per offer

`OneLinePerOffer` is the invariant of the line table: two lines of one order with the same
offer are the same line, or one of them is explicit and the other legacy.  A write keeps it
when its lines are versions of old ones (`OneLinePerOffer.shrink`), or when it inserts lines
whose offers are new to their kind (`OneLinePerOffer.insert`, `OneLinePerOffer.insertAll`).
-/

/-- The line was chosen from the catalog. -/
def OrderLine.isExplicit (l : OrderLine) : Bool := l.businessOfferSelection.isSome

structure OneLinePerOffer (db : Db) : Prop where
  references : ∀ l ∈ db.lines, ∃ o ∈ db.orders, o.pk = l.orderId
  product : ∀ l ∈ db.lines, ∀ o ∈ db.commercialPrices, o.pk = l.commercialOfferId →
    o.productId = l.productId
  selection : ∀ l ∈ db.lines, ∀ s, l.businessOfferSelection = some s → s = some l.commercialOfferId
  unique : ∀ l ∈ db.lines, ∀ l' ∈ db.lines, l.orderId = l'.orderId →
    l.commercialOfferId = l'.commercialOfferId → l.isExplicit = l'.isExplicit → l = l'

/-! ### Lines that are versions of old ones -/

/-- Every line is a version of an old one. -/
def Shrinks (t t' : Table OrderLine) : Prop := ∀ l' ∈ t', ∃ l ∈ t, l.SameChoice l'

namespace Shrinks

variable {t : Table OrderLine}

/-- Every line is a version of itself. -/
theorem refl (t : Table OrderLine) : Shrinks t t := fun l hl => ⟨l, hl, OrderLine.SameChoice.refl l⟩

/-- The lines that remain are old ones. -/
theorem delete (t : Table OrderLine) (p : OrderLine → Bool) : Shrinks t (t.delete p) :=
  fun l hl => ⟨l, (Table.mem_delete.mp hl).1, OrderLine.SameChoice.refl l⟩

/-- A line is replaced by a version of itself. -/
theorem put {l l' : OrderLine} (hl : l ∈ t) (hsame : l.SameChoice l') : Shrinks t (t.put l') := by
  intro x hx
  rcases Table.of_mem_put hx with rfl | ⟨hx, -⟩
  · exact ⟨l, hl, hsame⟩
  · exact ⟨x, hx, OrderLine.SameChoice.refl x⟩

/-- Lines are replaced by versions of old ones. -/
theorem putAll {ls : List OrderLine} (h : ∀ l' ∈ ls, ∃ l ∈ t, l.SameChoice l') :
    Shrinks t (ls.foldl Table.put t) := by
  intro x hx
  rcases Table.of_mem_foldl_put hx with hx | hx
  · exact h x hx
  · exact ⟨x, hx, OrderLine.SameChoice.refl x⟩

end Shrinks

namespace OneLinePerOffer

variable {db db' : Db}

/-- Versions of old lines are as unique as these were. -/
theorem shrink (h : OneLinePerOffer db) (horders : ∀ o ∈ db.orders, ∃ o' ∈ db'.orders, o'.pk = o.pk)
    (hoffers : db'.commercialPrices = db.commercialPrices) (hlines : Shrinks db.lines db'.lines) :
    OneLinePerOffer db' where
  references l' hl' := by
    obtain ⟨l, hl, hsame⟩ := hlines l' hl'
    obtain ⟨o, ho, hpk⟩ := h.references l hl
    obtain ⟨o', ho', hpk'⟩ := horders o ho
    exact ⟨o', ho', hpk'.trans (hpk.trans hsame.order.symm)⟩
  product l' hl' o ho hpk := by
    obtain ⟨l, hl, hsame⟩ := hlines l' hl'
    exact (h.product l hl o (hoffers ▸ ho) (hpk.trans hsame.offer)).trans hsame.product.symm
  selection l' hl' s hs := by
    obtain ⟨l, hl, hsame⟩ := hlines l' hl'
    rw [h.selection l hl s (hsame.selection.symm.trans hs), hsame.offer]
  unique l₁' h₁' l₂' h₂' horder hoffer hexplicit := by
    obtain ⟨l₁, h₁, hsame₁⟩ := hlines l₁' h₁'
    obtain ⟨l₂, h₂, hsame₂⟩ := hlines l₂' h₂'
    -- Two new lines of one choice are versions of one old line.
    have heq : l₁ = l₂ := by
      refine h.unique l₁ h₁ l₂ h₂ (hsame₁.order.symm.trans (horder.trans hsame₂.order))
        (hsame₁.offer.symm.trans (hoffer.trans hsame₂.offer)) ?_
      unfold OrderLine.isExplicit at hexplicit ⊢
      rw [← hsame₁.selection, ← hsame₂.selection, hexplicit]
    exact Table.eq_of_pk_eq (t := db'.lines) h₁' h₂'
      (hsame₁.pk.trans ((congrArg OrderLine.pk heq).trans hsame₂.pk.symm))

/-- A write that leaves the lines, the orders and the offers as they are. -/
theorem frame (h : OneLinePerOffer db) (horders : ∀ o ∈ db.orders, ∃ o' ∈ db'.orders, o'.pk = o.pk)
    (hoffers : db'.commercialPrices = db.commercialPrices) (hlines : db'.lines = db.lines) :
    OneLinePerOffer db' :=
  h.shrink horders hoffers (hlines ▸ Shrinks.refl _)

/-- A line may be inserted when its order has none of the same kind for its offer. -/
theorem insert (h : OneLinePerOffer db) (d : NewRow OrderLine) {l : OrderLine}
    (hl : d.make db.lines.next = l) (horder : ∃ o ∈ db.orders, o.pk = l.orderId)
    (hproduct : ∀ o ∈ db.commercialPrices, o.pk = l.commercialOfferId → o.productId = l.productId)
    (hselection : ∀ s, l.businessOfferSelection = some s → s = some l.commercialOfferId)
    (hnew : ∀ x ∈ db.lines, x.orderId = l.orderId → x.commercialOfferId = l.commercialOfferId →
      x.isExplicit ≠ l.isExplicit) :
    OneLinePerOffer { db with lines := db.lines.insert d } where
  references x hx := by
    rcases Table.mem_insert.mp hx with hx | hx
    · exact h.references x hx
    · rw [hx, hl]
      exact horder
  product x hx := by
    rcases Table.mem_insert.mp hx with hx | hx
    · exact h.product x hx
    · rw [hx, hl]
      exact hproduct
  selection x hx := by
    rcases Table.mem_insert.mp hx with hx | hx
    · exact h.selection x hx
    · rw [hx, hl]
      exact hselection
  unique x hx y hy hxy hoffer hexplicit := by
    -- Two old lines are told apart as before; the new one is of a choice that no old line has.
    rcases Table.mem_insert.mp hx with hx | hx <;> rcases Table.mem_insert.mp hy with hy | hy
    · exact h.unique x hx y hy hxy hoffer hexplicit
    · rw [hy, hl] at hxy hoffer hexplicit
      exact absurd hexplicit (hnew x hx hxy hoffer)
    · rw [hx, hl] at hxy hoffer hexplicit
      exact absurd hexplicit.symm (hnew y hy hxy.symm hoffer.symm)
    · rw [hx, hy]

/-- Legacy lines with different offers may be inserted into an order that has no legacy line
    for any of them. -/
theorem insertAll (h : OneLinePerOffer db) {k : ℕ} (hk : ∃ o ∈ db.orders, o.pk = k)
    {xs : List NewOrderLine} (horder : ∀ x ∈ xs, x.orderId = k)
    (hproduct : ∀ x ∈ xs, ∀ o ∈ db.commercialPrices, o.pk = x.commercialOfferId →
      o.productId = x.productId)
    (hnd : (xs.map NewOrderLine.commercialOfferId).Nodup)
    (hnew : ∀ x ∈ xs, ∀ l ∈ db.lines, l.orderId = k → l.commercialOfferId = x.commercialOfferId →
      l.isExplicit = true) :
    OneLinePerOffer { db with lines := db.lines.insertAll (xs.map NewOrderLine.row) } := by
  -- By induction on the new lines, whose offers are distinct.
  induction xs generalizing db with
  | nil => exact h
  | cons x xs ih =>
    rw [List.map_cons, List.nodup_cons] at hnd
    have hhead : OneLinePerOffer { db with lines := db.lines.insert x.row } := by
      have hx := List.mem_cons_self (a := x) (l := xs)
      refine h.insert x.row rfl ?_ (hproduct x hx) (fun s hs => (by cases hs)) ?_
      · obtain ⟨o, ho, hpk⟩ := hk
        exact ⟨o, ho, hpk.trans (horder x hx).symm⟩
      · intro l hl hlx hoffer hexplicit
        rw [hnew x hx l hl (hlx.trans (horder x hx)) hoffer] at hexplicit
        cases hexplicit
    refine ih hhead hk (fun y hy => horder y (List.mem_cons_of_mem _ hy))
      (fun y hy => hproduct y (List.mem_cons_of_mem _ hy)) hnd.2 (fun y hy l hl hlk hoffer => ?_)
    rcases Table.mem_insert.mp hl with hl | rfl
    · exact hnew y (List.mem_cons_of_mem _ hy) l hl hlk hoffer
    · -- the line just inserted is for another offer
      exact absurd (List.mem_map.mpr ⟨y, hy, hoffer.symm⟩) hnd.1

end OneLinePerOffer

/-! ### Resolved lines -/

/-- Lines resolved against the offers as they are, one for each offer. -/
structure ResolvedLines (db : Db) (lines : List ResolvedOrderLine) : Prop where
  known : ∀ line ∈ lines, line.commercialOffer ∈ db.commercialPrices
  distinct : (lines.map (fun line => line.commercialOffer.pk)).Nodup

/-- The ops lines are resolved against the offers, one for each offer. -/
theorem resolveBusinessOfferLines_resolved {db : Db} {inputs : List BusinessOfferLineInput}
    {lines : List ResolvedOrderLine} (h : resolveBusinessOfferLines db inputs = .ok lines) :
    ResolvedLines db lines := by
  obtain ⟨-, hmerged⟩ := merged_of_resolve h
  exact ⟨fun line hline => (hmerged.selectable line hline).known, hmerged.distinct⟩

/-- The standard offer is an offer of the product. -/
theorem standardBusinessOffer_some {db : Db} {p : ℕ} {o : CommercialPrice}
    (h : standardBusinessOffer db p = some o) : o ∈ db.commercialPrices ∧ o.productId = p := by
  refine ⟨List.mem_of_find?_eq_some h, ?_⟩
  have hfound := List.find?_some h
  simp only [Bool.and_eq_true, decide_eq_true_eq] at hfound
  exact hfound.1.1

/-- The products' lines are resolved against the standard offers, one for each. -/
theorem resolveBusinessOrderLines_resolved {db : Db} {inputs : List OrderLineInput}
    {lines : List ResolvedOrderLine} (h : resolveBusinessOrderLines db inputs = .ok lines) :
    ResolvedLines db lines := by
  obtain ⟨-, hmerged⟩ := mergedProducts_of_resolve h
  have hoffer : ∀ line ∈ lines, line.commercialOffer ∈ db.commercialPrices
      ∧ line.commercialOffer.productId = line.product.pk :=
    fun line hline => standardBusinessOffer_some (hmerged.ordered line hline).standard
  refine ⟨fun line hline => (hoffer line hline).1, ?_⟩
  -- lines of different products have different offers
  refine (List.nodup_map_iff_inj_on (List.Nodup.of_map _ hmerged.distinct)).mpr ?_
  intro x hx y hy hxy
  have heq : x.commercialOffer = y.commercialOffer :=
    Table.eq_of_pk_eq (t := db.commercialPrices) (hoffer x hx).1 (hoffer y hy).1 hxy
  refine List.inj_on_of_nodup_map hmerged.distinct hx hy ?_
  rw [← (hoffer x hx).2, ← (hoffer y hy).2, heq]

end SwedeSweets
