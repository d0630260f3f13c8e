import SwedeSweets.Inventory.Services
import Mathlib

namespace SwedeSweets

open Relational Fallible

/-!
# Generated batch ids

The next id of a product goes on from the id that the database sorts last among those with the
product's prefix (`Latest`).  `generateBatchId_of_none` and `generateBatchId_of_latest` say what
is generated; a generated id is plain text, so saving it changes nothing (`normalizeBatchId_plain`).
-/

/-! ### Plain text -/

namespace Text

/-- Capitals, digits and hyphens. -/
def Plain (s : String) : Prop := ∀ c ∈ s.toList, c = '-' ∨ c.isUpper = true ∨ c.isDigit = true

/-- Plain texts join to a plain text. -/
theorem Plain.append {s s' : String} (h : Plain s) (h' : Plain s') : Plain (s ++ s') := by
  intro c hc
  rw [String.toList_append, List.mem_append] at hc
  exact hc.elim (h c) (h' c)

/-- Plain characters are printable and none of them is blank. -/
theorem toNat_of_plain {c : Char} (h : c = '-' ∨ c.isUpper = true ∨ c.isDigit = true) :
    33 ≤ c.toNat ∧ c.toNat ≤ 126 := by
  rcases h with rfl | h | h
  · decide
  · simp only [Char.isUpper, UInt32.le_iff_toNat_le, decide_eq_true_eq] at h
    exact ⟨le_trans (by decide) h.1, le_trans h.2 (by decide)⟩
  · simp only [Char.isDigit, UInt32.le_iff_toNat_le, Bool.and_eq_true, decide_eq_true_eq] at h
    exact ⟨le_trans (by decide) h.1, le_trans h.2 (by decide)⟩

/-- A plain text has no NUL, so only its length decides whether a column holds it. -/
theorem fits_plain {s : String} (h : Plain s) {maxLength : ℕ} :
    FitsColumn maxLength s ↔ s.length ≤ maxLength := by
  refine and_iff_right (fun hnul => ?_)
  have hrange := toNat_of_plain (h _ hnul)
  have hzero : Char.toNat '\x00' = 0 := rfl
  omega

/-- No plain character is white space. -/
theorem not_isSpace_of_plain {c : Char} (h : c = '-' ∨ c.isUpper = true ∨ c.isDigit = true) :
    isSpace c = false := by
  have hrange := toNat_of_plain h
  simp only [isSpace, Bool.or_eq_false_iff, Bool.and_eq_false_iff, decide_eq_false_iff_not]
  omega

/-- Text without spaces is not stripped. -/
theorem stripChars_eq_self {cs : List Char} (h : ∀ c ∈ cs, isSpace c = false) :
    stripChars cs = cs := by
  have hdrop : ∀ {ds : List Char}, (∀ c ∈ ds, isSpace c = false) → ds.dropWhile isSpace = ds := by
    intro ds hds
    cases ds with
    | nil => rfl
    | cons d ds => rw [List.dropWhile_cons_of_neg (by simp [hds d (List.mem_cons_self ..)])]
  unfold stripChars
  rw [hdrop h, hdrop (fun c hc => h c (List.mem_reverse.mp hc)), List.reverse_reverse]

/-- A plain text is stripped already. -/
theorem strip_plain {s : String} (h : Plain s) : strip s = s := by
  unfold strip
  rw [stripChars_eq_self (fun c hc => not_isSpace_of_plain (h c hc)), String.ofList_toList]

/-- A padded number is plain. -/
theorem padded_plain (width n : ℕ) : Plain (padded width n) := by
  intro c hc
  unfold padded at hc
  rw [String.toList_ofList, List.mem_append] at hc
  refine Or.inr (Or.inr ?_)
  rcases hc with hc | hc
  · rw [List.eq_of_mem_replicate hc]
    rfl
  · exact Nat.isDigit_of_mem_toDigits (b := 10) (by omega) (le_refl 10) hc

/-- A padded natural number is padded as such. -/
theorem paddedInt_natCast (width n : ℕ) : paddedInt width (n : ℤ) = padded width n := by
  unfold paddedInt
  rw [if_neg (by omega), Int.natAbs_natCast]

/-- The successor of a natural number is padded as such. -/
theorem paddedInt_succ (width n : ℕ) : paddedInt width ((n : ℤ) + 1) = padded width (n + 1) := by
  rw [← Nat.cast_succ]
  exact paddedInt_natCast width (n + 1)

/-- A padded number is no longer than its width or its digits. -/
theorem length_padded_le {width n k : ℕ} (hwidth : width ≤ k) (hk : 0 < k) (h : n < 10 ^ k) :
    (padded width n).length ≤ k := by
  have hdigits : (Nat.toDigits 10 n).length ≤ k := (Nat.length_toDigits_le_iff (by decide) hk).mpr h
  unfold padded
  rw [String.length_ofList, List.length_append, List.length_replicate]
  omega

/-- A number without a minus sign is not negative. -/
theorem int_nonneg {decimal : Char → Option ℕ} {s : String} {n : ℤ} (hsign : '-' ∉ s.toList)
    (h : int decimal s = some n) : ∃ m : ℕ, n = m := by
  unfold int at h
  split at h
  · -- stripping adds no sign
    rename_i cs hcs
    have hsub : ∀ c ∈ stripChars s.toList, c ∈ s.toList := by
      intro c hc
      unfold stripChars at hc
      rw [List.mem_reverse] at hc
      have hc := List.mem_reverse.mp ((List.dropWhile_sublist _).subset hc)
      exact (List.dropWhile_sublist _).subset hc
    exact absurd (hsub '-' (hcs ▸ List.mem_cons_self ..)) hsign
  · obtain ⟨m, -, rfl⟩ := Option.map_eq_some_iff.mp h
    exact ⟨m, rfl⟩
  · obtain ⟨m, -, rfl⟩ := Option.map_eq_some_iff.mp h
    exact ⟨m, rfl⟩

end Text

/-- What follows the last hyphen has none. -/
theorem hyphen_notMem_afterLastHyphen (s : String) : '-' ∉ (afterLastHyphen s).toList := by
  unfold afterLastHyphen
  rw [String.toList_ofList, List.mem_reverse]
  intro hmem
  have hne := List.mem_takeWhile_imp hmem
  simp at hne

/-! ### The prefix -/

/-- What the language and the database do to plain text. -/
structure PlainText (rt : Runtime) : Prop where
  upper : ∀ s, Text.Plain s → rt.upper s = s
  total : ∀ s s', rt.textLe s s' = true ∨ rt.textLe s' s = true
  trans : ∀ s s' s'', rt.textLe s s' = true → rt.textLe s' s'' = true → rt.textLe s s'' = true
  antisymm : ∀ s s', rt.textLe s s' = true → rt.textLe s' s = true → s = s'

/-- The batch id of a product with this number. -/
def numberedBatchId (rt : Runtime) (product : Product) (n : ℕ) : String :=
  batchIdPrefix rt product ++ "-" ++ Text.padded batchIdSequenceWidth n

/-- The id starts with the prefix of the product. -/
def Prefixed (rt : Runtime) (product : Product) (batchId : String) : Prop :=
  (batchIdPrefix rt product ++ "-").toList.isPrefixOf batchId.toList = true

/-- The database lists no batch of the prefix after this one. -/
structure Latest (rt : Runtime) (db : Db) (product : Product) (b : InventoryBatch) : Prop where
  mem : b ∈ db.batches
  prefixed : Prefixed rt product b.batchId
  last : ∀ c ∈ db.batches, Prefixed rt product c.batchId → rt.textLe c.batchId b.batchId = true

variable {rt : Runtime} {db db' : Db} {product : Product}

/-- A part made of a product's text is plain. -/
theorem plain_batchTextPart (value : String) : Text.Plain (batchTextPart rt value) := by
  unfold batchTextPart
  dsimp only
  split
  · simp [Text.Plain]
  · intro c hc
    rw [String.toList_ofList, List.mem_append] at hc
    refine Or.inr ?_
    rcases hc with hc | hc
    · obtain ⟨hc, halnum⟩ := List.mem_filter.mp (List.mem_of_mem_take hc)
      obtain ⟨d, -, rfl⟩ := List.mem_map.mp hc
      -- what `upper` returns is no small letter
      have hlower := Char.isLower_toUpper_eq_false d
      simp only [Char.isAlphanum, Char.isAlpha, hlower, Bool.or_false, Bool.or_eq_true] at halnum
      exact halnum
    · rw [List.eq_of_mem_replicate hc]
      exact Or.inl rfl

/-- A product's code is plain. -/
theorem plain_batchProductCode (product : Product) : Text.Plain (batchProductCode product) := by
  have hmissing : Text.Plain batchIdMissingProductCode := by
    simp [Text.Plain, batchIdMissingProductCode]
  unfold batchProductCode
  split
  · split
    · exact hmissing
    · exact Text.Plain.append (by simp [Text.Plain]) (Text.padded_plain _ _)
  · exact hmissing

/-- A generated id is plain. -/
theorem plain_numberedBatchId (rt : Runtime) (product : Product) (n : ℕ) :
    Text.Plain (numberedBatchId rt product n) := by
  have hhyphen : Text.Plain "-" := by simp [Text.Plain]
  unfold numberedBatchId batchIdPrefix
  exact (((((plain_batchProductCode product).append hhyphen).append (plain_batchTextPart _)).append
    hhyphen).append (plain_batchTextPart _)).append hhyphen |>.append (Text.padded_plain _ _)

/-- A generated id has the product's prefix. -/
theorem prefixed_numberedBatchId (rt : Runtime) (product : Product) (n : ℕ) :
    Prefixed rt product (numberedBatchId rt product n) := by
  unfold Prefixed numberedBatchId
  rw [List.isPrefixOf_iff_prefix, String.toList_append (s := batchIdPrefix rt product ++ "-")]
  exact List.prefix_append _ _

/-- Saving a generated id does not change it. -/
theorem normalizeBatchId_numbered (htext : PlainText rt) (n : ℕ) :
    normalizeBatchId rt (numberedBatchId rt product n) = .ok (numberedBatchId rt product n) := by
  have hplain := plain_numberedBatchId rt product n
  unfold normalizeBatchId
  simp only [Text.strip_plain hplain, htext.upper _ hplain, bind_eq_ok, require_eq_ok, exists_const,
    pure_eq_ok, and_true]
  intro hempty
  have hlength := congrArg String.length hempty
  unfold numberedBatchId at hlength
  simp only [String.length_append] at hlength
  simp at hlength

/-! ### Generating -/

/-- The first batch of the query is one with the greatest id. -/
theorem latest_of_head (htext : PlainText rt) {b : InventoryBatch}
    (h : ((db.batches.select (fun b => (batchIdPrefix rt product ++ "-").toList.isPrefixOf
      b.batchId.toList)).insertionSort (fun a b => rt.textLe b.batchId a.batchId = true)).head?
        = some b) : Latest rt db product b := by
  set listed := db.batches.select (fun b => (batchIdPrefix rt product ++ "-").toList.isPrefixOf
    b.batchId.toList) with hlisted
  have : Std.Total (fun a b : InventoryBatch => rt.textLe b.batchId a.batchId = true) :=
    ⟨fun a b => htext.total b.batchId a.batchId⟩
  have : IsTrans InventoryBatch (fun a b => rt.textLe b.batchId a.batchId = true) :=
    ⟨fun a b c hab hbc => htext.trans _ _ _ hbc hab⟩
  -- Sorting by a total order puts a greatest id first.
  have hsorted := List.pairwise_insertionSort
    (fun a b : InventoryBatch => rt.textLe b.batchId a.batchId = true) listed
  obtain ⟨rest, hrest⟩ := List.head?_eq_some_iff.mp h
  rw [hrest, List.pairwise_cons] at hsorted
  -- The sorted list holds the batches with the prefix, each of them.
  have hmem : ∀ c, c ∈ b :: rest ↔ c ∈ db.batches ∧ Prefixed rt product c.batchId := by
    intro c
    rw [← hrest, List.mem_insertionSort, hlisted, Table.mem_select]
    rfl
  obtain ⟨hb, hprefixed⟩ := (hmem b).mp (List.mem_cons_self ..)
  refine ⟨hb, hprefixed, fun c hc hcp => ?_⟩
  rcases List.mem_cons.mp ((hmem c).mpr ⟨hc, hcp⟩) with rfl | hrest
  · exact (htext.total c.batchId c.batchId).elim id id
  · exact hsorted.1 c hrest

/-- If any batch has the prefix, one of them is listed last. -/
theorem exists_latest (htext : PlainText rt)
    (h : ∃ b ∈ db.batches, Prefixed rt product b.batchId) : ∃ b, Latest rt db product b := by
  obtain ⟨b, hb, hprefixed⟩ := h
  have hmem : b ∈ (db.batches.select (fun b => (batchIdPrefix rt product ++ "-").toList.isPrefixOf
      b.batchId.toList)).insertionSort (fun a b => rt.textLe b.batchId a.batchId = true) :=
    (List.mem_insertionSort _).mpr (Table.mem_select.mpr ⟨hb, hprefixed⟩)
  obtain ⟨first, hfirst⟩ := Option.isSome_iff_exists.mp
    (List.isSome_head?.mpr (List.ne_nil_of_mem hmem))
  exact ⟨first, latest_of_head htext hfirst⟩

/-- The first id of a product is number one. -/
theorem generateBatchId_of_none (h : ∀ b ∈ db.batches, ¬ Prefixed rt product b.batchId) :
    generateBatchId rt db product = .ok (numberedBatchId rt product 1) := by
  have hnone : db.batches.select (fun b => (batchIdPrefix rt product ++ "-").toList.isPrefixOf
      b.batchId.toList) = [] :=
    List.filter_eq_nil_iff.mpr h
  unfold generateBatchId
  simp only [hnone, List.insertionSort_nil, List.head?_nil]
  rfl

/-- **The next id.** The number after the one at the end of the id that is listed last. -/
theorem generateBatchId_of_latest (htext : PlainText rt) {b : InventoryBatch}
    (h : Latest rt db product b) {batchId : String} :
    generateBatchId rt db product = .ok batchId ↔
      ∃ n : ℕ, Text.int rt.decimal (afterLastHyphen b.batchId) = some (n : ℤ)
        ∧ batchId = numberedBatchId rt product (n + 1) := by
  have hmem : b ∈ (db.batches.select (fun b => (batchIdPrefix rt product ++ "-").toList.isPrefixOf
      b.batchId.toList)).insertionSort (fun a b => rt.textLe b.batchId a.batchId = true) :=
    (List.mem_insertionSort _).mpr (Table.mem_select.mpr ⟨h.mem, h.prefixed⟩)
  unfold generateBatchId
  dsimp only
  cases hhead : ((db.batches.select (fun b => (batchIdPrefix rt product ++ "-").toList.isPrefixOf
      b.batchId.toList)).insertionSort (fun a b => rt.textLe b.batchId a.batchId = true)).head? with
  | none =>
    rw [List.head?_eq_none_iff] at hhead
    rw [hhead] at hmem
    cases hmem
  | some b' =>
    have hlatest := latest_of_head htext hhead
    -- no two ids are both listed last
    have hid : b'.batchId = b.batchId := htext.antisymm _ _
      (h.last b' hlatest.mem hlatest.prefixed) (hlatest.last b h.mem h.prefixed)
    simp only [bind_eq_ok, orRaise_eq_ok, pure_eq_ok, hid, exists_eq_left']
    constructor
    · rintro ⟨number, hnumber, rfl⟩
      obtain ⟨n, rfl⟩ := Text.int_nonneg (hyphen_notMem_afterLastHyphen b.batchId) hnumber
      refine ⟨n, hnumber, ?_⟩
      unfold numberedBatchId
      rw [Text.paddedInt_succ]
    · rintro ⟨n, hnumber, rfl⟩
      refine ⟨(n : ℤ), hnumber, ?_⟩
      unfold numberedBatchId
      rw [Text.paddedInt_succ]

/-- What a batch is saved under, when it is generated. -/
theorem createBatchWithId_numbered (htext : PlainText rt) {n quantity : ℕ} {bestBefore : Date}
    {location : String} {user : Option ℕ} :
    createBatchWithId rt db (numberedBatchId rt product n) product quantity bestBefore location user
        = .ok db' ↔
      ∃ place, normalizeLocation location = .ok place ∧ FitsColumn maxLocationLength place
        ∧ quantity ≤ maxInteger
        ∧ (numberedBatchId rt product n).length ≤ maxBatchIdLength
        ∧ (∀ b ∈ db.batches, b.batchId ≠ numberedBatchId rt product n)
        ∧ db' = { db with
            batches := db.batches.insert
              (newBatch rt (numberedBatchId rt product n) product quantity bestBefore place user) } := by
  unfold createBatchWithId
  simp only [normalizeBatchId_numbered htext, bind_eq_ok, Except.ok.injEq, exists_eq_left',
    require_eq_ok, requireInteger_eq_ok, requireFits_eq_ok,
    Text.fits_plain (plain_numberedBatchId rt product n), exists_const, pure_eq_ok]
  refine exists_congr (fun place => ?_)
  -- Both ways the conditions are the same; only their order differs.
  constructor
  · rintro ⟨hplace, hquantity, hid, hfits, hfree, rfl⟩
    exact ⟨hplace, hfits, hquantity, hid, hfree, rfl⟩
  · rintro ⟨hplace, hfits, hquantity, hid, hfree, rfl⟩
    exact ⟨hplace, hquantity, hid, hfits, hfree, rfl⟩

end SwedeSweets
