import SwedeSweets.Guarantees.Stock
import SwedeSweets.Inventory.BatchIds

namespace SwedeSweets

open Relational Fallible

/-!
# Fresh batch ids

A batch that is created without an id gets the number after that of the id listed last
(`generateBatchId_of_latest`).  Ids are listed in the order of the database's texts, not of their
numbers, and some were entered by hand.  So `generated_ids_fresh`: the creation goes through iff
the id listed last ends in a number, and the next number is free (`CountsOn`).
-/

variable {rt : Runtime} {db : Db} {product : Product}

/-- A batch is created under an id of the generated form that no batch had. -/
def CreatesFresh (rt : Runtime) (db : Db) (product : Product) (quantity : ℤ) (bestBefore : Date)
    (location : String) (today : Option Date) (allow : Bool) (user : Option ℕ) : Prop :=
  ∃ db' b, createBatch rt db product.pk quantity bestBefore location none today allow user = .ok db'
    ∧ (∀ x, x ∈ db'.batches ↔ x ∈ db.batches ∨ x = b) ∧ b.productId = product.pk
    ∧ (∃ n, b.batchId = numberedBatchId rt product n) ∧ ∀ x ∈ db.batches, x.batchId ≠ b.batchId

/-- Counting can go on from this batch: its id ends in a number, and the id with the next number
    is free and fits its column. -/
def CountsOn (rt : Runtime) (db : Db) (product : Product) (b : InventoryBatch) : Prop :=
  ∃ n : ℕ, Text.int rt.decimal (afterLastHyphen b.batchId) = some (n : ℤ)
    ∧ (∀ c ∈ db.batches, c.batchId ≠ numberedBatchId rt product (n + 1))
    ∧ (numberedBatchId rt product (n + 1)).length ≤ maxBatchIdLength

/-- A location that can be saved. -/
def ValidLocation (location : String) : Prop :=
  ∃ place, normalizeLocation location = .ok place ∧ FitsColumn maxLocationLength place

/-- A quantity that a new batch can be saved with. -/
def ValidQuantity (quantity : ℤ) : Prop := 0 < quantity ∧ quantity ≤ maxInteger

/-- The first id fits its column. -/
theorem length_firstBatchId (rt : Runtime)
    (hinternal : ∀ n, product.internalNumber = some n → n < 2 ^ 15) :
    (numberedBatchId rt product 1).length ≤ maxBatchIdLength := by
  -- Six, three, three and three characters, with three hyphens between them.
  have hcode : (batchProductCode product).length ≤ 6 := by
    unfold batchProductCode
    split
    · rename_i n hn
      split
      · decide
      · have hpadded : (Text.padded 3 n).length ≤ 5 := by
          have hlt := hinternal n hn
          exact Text.length_padded_le (by omega) (by omega) (by omega)
        have hletter : "P".length = 1 := rfl
        rw [String.length_append, hletter]
        omega
    · decide
  have hpart : ∀ value, (batchTextPart rt value).length ≤ 3 := by
    intro value
    unfold batchTextPart
    dsimp only
    split
    · decide
    · have htake := List.length_take_le batchIdTextPartLength
        ((((rt.nfkd value).toList.filter (fun c => c.toNat < 128)).map Char.toUpper).filter
          Char.isAlphanum)
      rw [String.length_ofList, List.length_append, List.length_replicate]
      unfold batchIdTextPartLength at *
      omega
  have hnumber : (Text.padded batchIdSequenceWidth 1).length ≤ 3 :=
    Text.length_padded_le (le_refl 3) (by omega) (by omega)
  have hbrand := hpart product.brand
  have hname := hpart product.name
  have hhyphen : "-".length = 1 := rfl
  unfold numberedBatchId batchIdPrefix maxBatchIdLength
  simp only [String.length_append, hhyphen]
  omega

/-- What creating a batch without an id comes to. -/
theorem createBatch_generated (hproduct : product ∈ db.products) {db' : Db} {quantity : ℤ}
    {bestBefore : Date} {location : String} {today : Option Date} {allow : Bool} {user : Option ℕ}
    (hquantity : 0 < quantity) (hdate : today.getD rt.today < bestBefore ∨ allow = true) :
    createBatch rt db product.pk quantity bestBefore location none today allow user = .ok db' ↔
      ∃ batchId, generateBatchId rt db product = .ok batchId
        ∧ createBatchWithId rt db batchId product quantity.toNat bestBefore location user = .ok db' := by
  have hget : db.getProduct product.pk = .ok product := by
    unfold Db.getProduct
    rw [orRaise_eq_ok]
    exact Table.get?_self hproduct
  unfold createBatch
  simp only [hget, bind_eq_ok, Except.ok.injEq, exists_eq_left', require_eq_ok, exists_const,
    Option.filter_none, mapError_eq_ok]
  exact ⟨fun h => h.2.2, fun h => ⟨hquantity, hdate, h⟩⟩

/-- **Fresh batch ids.** A creation without an id goes through, under a fresh id of the generated
    form, iff counting can go on from the batch that is listed last. -/
theorem generated_ids_fresh (htext : PlainText rt) (hproduct : product ∈ db.products)
    (hinternal : ∀ n, product.internalNumber = some n → n < 2 ^ 15) {quantity : ℤ}
    {bestBefore : Date} {location : String} {today : Option Date} {allow : Bool} {user : Option ℕ}
    (hquantity : ValidQuantity quantity) (hdate : today.getD rt.today < bestBefore ∨ allow = true)
    (hlocation : ValidLocation location) :
    CreatesFresh rt db product quantity bestBefore location today allow user ↔
      ∀ b, Latest rt db product b → CountsOn rt db product b := by
  -- once the number is known, the row is saved unless it is taken or does not fit
  have hsaved : ∀ n, generateBatchId rt db product = .ok (numberedBatchId rt product n) →
      (CreatesFresh rt db product quantity bestBefore location today allow user ↔
        (∀ c ∈ db.batches, c.batchId ≠ numberedBatchId rt product n)
          ∧ (numberedBatchId rt product n).length ≤ maxBatchIdLength) := by
    intro n hgenerate
    unfold CreatesFresh
    simp only [createBatch_generated hproduct hquantity.1 hdate, hgenerate, Except.ok.injEq,
      exists_eq_left', createBatchWithId_numbered htext]
    constructor
    · rintro ⟨db', b, ⟨place, -, -, -, hlength, hfree, -⟩, -⟩
      exact ⟨hfree, hlength⟩
    · rintro ⟨hfree, hlength⟩
      obtain ⟨place, hplace, hfits⟩ := hlocation
      have hcolumn : quantity.toNat ≤ maxInteger := Int.toNat_le.mpr hquantity.2
      exact ⟨_, (newBatch rt (numberedBatchId rt product n) product quantity.toNat bestBefore place
        user).make db.batches.next, ⟨place, hplace, hfits, hcolumn, hlength, hfree, rfl⟩,
        fun x => Table.mem_insert, rfl, ⟨n, rfl⟩, hfree⟩
  by_cases hnone : ∀ b ∈ db.batches, ¬ Prefixed rt product b.batchId
  · -- the first batch of the prefix
    rw [hsaved 1 (generateBatchId_of_none hnone)]
    refine iff_of_true ⟨fun c hc hid => hnone c hc ?_, length_firstBatchId rt hinternal⟩
      (fun b hb => absurd hb.prefixed (hnone b hb.mem))
    rw [hid]
    exact prefixed_numberedBatchId rt product 1
  · push Not at hnone
    obtain ⟨b, hb⟩ := exists_latest htext hnone
    constructor
    · intro hcreates b' hb'
      have hsome := hcreates
      obtain ⟨db', -, hok, -⟩ := hsome
      obtain ⟨batchId, hgenerate, -⟩ := (createBatch_generated hproduct hquantity.1 hdate).mp hok
      obtain ⟨n, hnumber, rfl⟩ := (generateBatchId_of_latest htext hb').mp hgenerate
      exact ⟨n, hnumber, (hsaved (n + 1) hgenerate).mp hcreates⟩
    · intro hcounts
      obtain ⟨n, hnumber, hfree⟩ := hcounts b hb
      exact (hsaved (n + 1) ((generateBatchId_of_latest htext hb).mpr ⟨n, hnumber, rfl⟩)).mpr hfree

namespace Shop

/-- A runtime that knows the digits. -/
def counting : Runtime :=
  { runtime 1 with decimal := fun c => if c.isDigit then some (c.toNat - 48) else none }

/-- The example's text functions are plain. -/
theorem counting_plain : PlainText counting where
  upper _ _ := rfl
  total s s' := by
    show decide (s ≤ s') = true ∨ decide (s' ≤ s) = true
    rw [decide_eq_true_iff, decide_eq_true_iff]
    exact le_total s s'
  trans s s' s'' h h' := by
    have h := of_decide_eq_true (p := s ≤ s') h
    have h' := of_decide_eq_true (p := s' ≤ s'') h'
    exact decide_eq_true (le_trans h h')
  antisymm s s' h h' := by
    have h := of_decide_eq_true (p := s ≤ s') h
    have h' := of_decide_eq_true (p := s' ≤ s) h'
    exact le_antisymm h h'

/-- The shop after one batch of the product was created without an id. -/
def numbered : Db :=
  (State.init.after (opening ++
    [(counting, .createBatch 1 5 30 "Shelf" none none false none)])).db

/-- The shop with a batch whose id was entered by hand. -/
def handEntered : Db :=
  (State.init.after (opening ++
    [(runtime 1, .createBatch 1 5 30 "Shelf" (some "P001-BRA-NAM-B") none false none)])).db

/-- The shop after the batches 999 and 1000. -/
def counted : Db :=
  (State.init.after (opening ++
    [ (runtime 1, .createBatch 1 5 30 "Shelf" (some "P001-BRA-NAM-999") none false none),
      (counting, .createBatch 1 5 30 "Shelf" none none false none) ])).db

end Shop

/-- The batch after the first gets number two. -/
theorem generated_ids_fresh_shop :
    CreatesFresh Shop.counting Shop.numbered Shop.product 5 30 "Shelf" none false none := by
  have hproduct : Shop.product ∈ Shop.numbered.products.rows := by decide +kernel
  have hlocation : ValidLocation "Shelf" := ⟨"Shelf", by decide +kernel, by decide⟩
  refine (generated_ids_fresh Shop.counting_plain hproduct (fun n hn => ?_) ⟨by decide, by decide⟩
    (Or.inl (by decide)) hlocation).mpr (fun b hb => ⟨1, ?_⟩)
  · cases hn
    decide
  -- Both batches of the shelf are looked at.
  · have hrows : ∀ b ∈ Shop.numbered.batches.rows,
        (batchIdPrefix Shop.counting Shop.product ++ "-").toList.isPrefixOf b.batchId.toList = true →
          Text.int Shop.counting.decimal (afterLastHyphen b.batchId) = some ((1 : ℕ) : ℤ)
            ∧ (∀ c ∈ Shop.numbered.batches.rows,
              c.batchId ≠ numberedBatchId Shop.counting Shop.product (1 + 1))
            ∧ (numberedBatchId Shop.counting Shop.product (1 + 1)).length ≤ maxBatchIdLength := by
      decide +kernel
    exact hrows b hb.mem hb.prefixed

/-- A number entered by hand that is none, and numbers past the width to which they are padded:
    the creation raises. -/
theorem generated_ids_stuck :
    (createBatch Shop.counting Shop.handEntered 1 5 30 "Shelf" none none false none).map (fun _ => ())
        = .error (.valueError "invalid literal for int()")
      ∧ Shop.counted.batches.rows.map InventoryBatch.batchId
        = ["B", "P001-BRA-NAM-999", "P001-BRA-NAM-1000"]
      ∧ (createBatch Shop.counting Shop.counted 1 5 30 "Shelf" none none false none).map (fun _ => ())
        = .error .transactionManagementError := by
  decide +kernel

end SwedeSweets
