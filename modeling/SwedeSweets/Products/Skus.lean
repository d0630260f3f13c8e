import SwedeSweets.Inventory.BatchIds
import SwedeSweets.Products.Catalog
import SwedeSweets.Whitespace

namespace SwedeSweets

open Relational Fallible

/-!
# What a SKU determines

A SKU made from an internal number has one hyphen, a SKU made from brand, name and weight has two
(`makeSku_eq_ok`), and no part contains any.  So the SKU determines the number it was made from,
or that there was none; and then the two slugs and the weight (`makeSku_inj`).
-/

/-! ### Numerals -/

namespace Text

/-- Padding does not change the number that is written. -/
theorem padded_injective {width n n' : ℕ} (h : padded width n = padded width n') : n = n' := by
  have hvalue : ∀ m, Nat.ofDigitChars 10 (padded width m).toList 0 = m := by
    intro m
    have hzeros : ∀ k, Nat.ofDigitChars 10 (List.replicate k '0' ++ Nat.toDigits 10 m) 0 = m := by
      intro k
      induction k with
      | zero => exact Nat.ofDigitChars_ten_toDigits
      | succ k ih =>
        rw [List.replicate_succ, List.cons_append, Nat.ofDigitChars_cons]
        exact ih
    unfold padded
    rw [String.toList_ofList]
    exact hzeros _
  rw [← hvalue n, h, hvalue n']

/-- Digits are not hyphens. -/
theorem hyphen_notMem_of_digits {cs : List Char} (h : ∀ c ∈ cs, c.isDigit = true) : '-' ∉ cs := by
  intro hmem
  have hdigit := h '-' hmem
  revert hdigit
  decide

/-- A padded number has no hyphen. -/
theorem hyphen_notMem_padded (width n : ℕ) : '-' ∉ (padded width n).toList := by
  refine hyphen_notMem_of_digits (fun c hc => ?_)
  unfold padded at hc
  rw [String.toList_ofList, List.mem_append] at hc
  rcases hc with hc | hc
  · rw [List.eq_of_mem_replicate hc]
    rfl
  · exact Nat.isDigit_of_mem_toDigits (by omega) (le_refl 10) hc

/-- The numeral of an integer that is not negative. -/
theorem toList_toString_of_nonneg {w : ℤ} (h : 0 ≤ w) :
    (toString w).toList = Nat.toDigits 10 w.toNat := by
  obtain ⟨n, rfl⟩ := Int.eq_ofNat_of_zero_le h
  exact Nat.toList_repr

/-- The numeral of an integer that is not negative has no hyphen. -/
theorem hyphen_notMem_toString {w : ℤ} (h : 0 ≤ w) : '-' ∉ (toString w).toList := by
  rw [toList_toString_of_nonneg h]
  exact hyphen_notMem_of_digits
    (fun c hc => Nat.isDigit_of_mem_toDigits (by omega) (le_refl 10) hc)

/-- Integers that are not negative have different numerals. -/
theorem toString_injective {w w' : ℤ} (h : 0 ≤ w) (h' : 0 ≤ w')
    (heq : (toString w).toList = (toString w').toList) : w = w' := by
  rw [toList_toString_of_nonneg h, toList_toString_of_nonneg h'] at heq
  have hvalue := congrArg (fun cs => Nat.ofDigitChars 10 cs 0) heq
  simp only [Nat.ofDigitChars_ten_toDigits] at hvalue
  omega

end Text

/-! ### Slugs -/

/-- The characters of a slug are alphanumeric or underscores. -/
theorem mem_slugChars {isalnum : Char → Bool} {separated : Bool} {cs : List Char} {c : Char}
    (h : c ∈ slugChars isalnum separated cs) : isalnum c = true ∨ c = '_' := by
  -- By induction on the characters; a separator gives at most one underscore.
  induction cs generalizing separated with
  | nil => cases h
  | cons d ds ih =>
    unfold slugChars at h
    split at h
    · rename_i halnum
      rcases List.mem_cons.mp h with rfl | h
      · exact Or.inl halnum
      · exact ih h
    · split at h
      · exact ih h
      · rcases List.mem_cons.mp h with rfl | h
        · exact Or.inr rfl
        · exact ih h

/-- Stripping underscores adds no character. -/
theorem mem_of_mem_stripUnderscores {cs : List Char} {c : Char} (h : c ∈ stripUnderscores cs) :
    c ∈ cs := by
  unfold stripUnderscores at h
  rw [List.mem_reverse] at h
  exact (List.dropWhile_sublist _).subset
    (List.mem_reverse.mp ((List.dropWhile_sublist _).subset h))

/-- A slug has no hyphen. -/
theorem hyphen_notMem_slug {rt : Runtime} {tables : SkuTables} {value slug : String}
    (h : slugifySkuPart rt tables value = .ok slug) : '-' ∉ slug.toList := by
  unfold slugifySkuPart at h
  simp only [bind_eq_ok, pure_eq_ok] at h
  obtain ⟨text, -, rfl⟩ := h
  rw [String.toList_ofList]
  intro hmem
  rcases mem_slugChars (mem_of_mem_stripUnderscores hmem) with halnum | hunderscore
  · rw [tables.isalnum_hyphen] at halnum
    cases halnum
  · cases hunderscore

/-! ### SKUs -/

/-- The SKU of a number. -/
def numberedSku (n : ℤ) : String := skuPrefix ++ "-" ++ Text.paddedInt skuInternalNumberWidth n

/-- The SKU of two slugs and a weight. -/
def describedSku (brand name : String) (weightPerUnit : ℤ) : String :=
  brand ++ "-" ++ name ++ "-" ++ toString weightPerUnit

/-- An SKU is made from the number if there is one, and from the two slugs and the weight if not. -/
theorem makeSku_eq_ok {rt : Runtime} {tables : SkuTables} {number : Option ℤ} {brand name : String}
    {weight : ℤ} {sku : String} :
    makeSku rt tables number brand name weight = .ok sku ↔
      (minWeightPerUnit ≤ weight ∧ weight ≤ maxWeightPerUnit) ∧ (∀ n ∈ number, 0 < n) ∧
        ((∃ n, number = some n ∧ sku = numberedSku n)
          ∨ (number = none ∧ ∃ x y, slugifySkuPart rt tables brand = .ok x
            ∧ slugifySkuPart rt tables name = .ok y ∧ sku = describedSku x y weight)) := by
  unfold makeSku validateWeightPerUnit validateInternalNumber
  simp only [bind_eq_ok, require_eq_ok, exists_const]
  refine and_congr_right (fun _ => and_congr_right (fun _ => ?_))
  cases number with
  | some n =>
    simp only [pure_eq_ok, Option.some.injEq, exists_eq_left', reduceCtorEq, false_and, or_false]
    exact eq_comm
  | none =>
    simp only [bind_eq_ok, pure_eq_ok, reduceCtorEq, false_and, exists_false, false_or, true_and]
    constructor
    · rintro ⟨x, hx, y, hy, rfl⟩
      exact ⟨x, y, hx, hy, rfl⟩
    · rintro ⟨x, y, hx, hy, rfl⟩
      exact ⟨x, hx, y, hy, rfl⟩

/-- Different numbers have different SKUs. -/
theorem numberedSku_injective {n n' : ℤ} (h : 0 < n) (h' : 0 < n')
    (heq : numberedSku n = numberedSku n') : n = n' := by
  obtain ⟨k, rfl⟩ := Int.eq_ofNat_of_zero_le h.le
  obtain ⟨k', rfl⟩ := Int.eq_ofNat_of_zero_le h'.le
  have hpadded : Text.padded skuInternalNumberWidth k = Text.padded skuInternalNumberWidth k' := by
    have hlists := congrArg String.toList heq
    unfold numberedSku at hlists
    simp only [Text.paddedInt_natCast, String.toList_append, List.append_cancel_left_eq] at hlists
    exact String.toList_inj.mp hlists
  rw [Text.padded_injective hpadded]

/-- One hyphen is not two. -/
theorem numberedSku_ne_describedSku {n weight : ℤ} {x y : String} (hn : 0 < n)
    (hx : '-' ∉ x.toList) (hy : '-' ∉ y.toList) (hw : 0 ≤ weight) :
    numberedSku n ≠ describedSku x y weight := by
  obtain ⟨k, rfl⟩ := Int.eq_ofNat_of_zero_le hn.le
  intro heq
  have hcount := congrArg (fun s : String => s.toList.count '-') heq
  have hprefix : skuPrefix.toList.count '-' = 0 := by decide
  have hhyphen : ("-" : String).toList.count '-' = 1 := by decide
  simp only [numberedSku, describedSku, Text.paddedInt_natCast, String.toList_append,
    List.count_append, hprefix, hhyphen, List.count_eq_zero_of_not_mem hx,
    List.count_eq_zero_of_not_mem hy,
    List.count_eq_zero_of_not_mem (Text.hyphen_notMem_padded _ k),
    List.count_eq_zero_of_not_mem (Text.hyphen_notMem_toString hw)] at hcount
  omega

/-- What stands before the first occurrence of a separator, and what stands after it. -/
theorem append_cons_inj_of_fresh {c : Char} {a a' r r' : List Char} (ha : c ∉ a) (ha' : c ∉ a')
    (h : a ++ c :: r = a' ++ c :: r') : a = a' ∧ r = r' := by
  induction a generalizing a' with
  | nil =>
    cases a' with
    | nil => exact ⟨rfl, (List.cons.inj h).2⟩
    | cons d ds => exact absurd ((List.cons.inj h).1 ▸ List.mem_cons_self ..) ha'
  | cons e es ih =>
    cases a' with
    | nil => exact absurd ((List.cons.inj h).1 ▸ List.mem_cons_self ..) ha
    | cons d ds =>
      obtain ⟨rfl, htail⟩ := List.cons.inj h
      obtain ⟨rfl, hr⟩ := ih (fun hm => ha (List.mem_cons_of_mem _ hm))
        (fun hm => ha' (List.mem_cons_of_mem _ hm)) htail
      exact ⟨rfl, hr⟩

/-- The hyphens of a described SKU can be told apart, so its parts can be read back. -/
theorem describedSku_injective {weight weight' : ℤ} {x y x' y' : String}
    (hx : '-' ∉ x.toList) (hy : '-' ∉ y.toList) (hw : 0 ≤ weight)
    (hx' : '-' ∉ x'.toList) (hy' : '-' ∉ y'.toList) (hw' : 0 ≤ weight')
    (heq : describedSku x y weight = describedSku x' y' weight') :
    x = x' ∧ y = y' ∧ weight = weight' := by
  have hlist : ∀ (u v : String) (w : ℤ), (describedSku u v w).toList
      = u.toList ++ '-' :: (v.toList ++ '-' :: (toString w).toList) := by
    intro u v w
    simp [describedSku]
  have hcut := congrArg String.toList heq
  rw [hlist, hlist] at hcut
  obtain ⟨hxx, hrest⟩ := append_cons_inj_of_fresh hx hx' hcut
  obtain ⟨hyy, hweights⟩ := append_cons_inj_of_fresh hy hy' hrest
  exact ⟨String.toList_inj.mp hxx, String.toList_inj.mp hyy, Text.toString_injective hw hw' hweights⟩

/-- **Injectivity.** Products made the same SKU from, at whatever time, have the same number or
    none, and then the same slugs and weight. -/
theorem makeSku_inj {rt rt' : Runtime} {tables tables' : SkuTables} {number number' : Option ℤ}
    {brand name brand' name' sku : String} {weight weight' : ℤ}
    (h : makeSku rt tables number brand name weight = .ok sku)
    (h' : makeSku rt' tables' number' brand' name' weight' = .ok sku) :
    number = number' ∧ (number = none → weight = weight'
      ∧ slugifySkuPart rt tables brand = slugifySkuPart rt' tables' brand'
      ∧ slugifySkuPart rt tables name = slugifySkuPart rt' tables' name') := by
  obtain ⟨⟨hw, -⟩, hpos, hcases⟩ := makeSku_eq_ok.mp h
  obtain ⟨⟨hw', -⟩, hpos', hcases'⟩ := makeSku_eq_ok.mp h'
  have hw : 0 ≤ weight := le_trans (by decide) hw
  have hw' : 0 ≤ weight' := le_trans (by decide) hw'
  -- Numbered or described: the two forms never meet.
  rcases hcases with ⟨n, rfl, rfl⟩ | ⟨rfl, x, y, hx, hy, rfl⟩
  · rcases hcases' with ⟨n', rfl, heq⟩ | ⟨rfl, x', y', hx', hy', heq⟩
    · have hn : n = n' := numberedSku_injective (hpos n rfl) (hpos' n' rfl) heq
      exact ⟨congrArg some hn, fun hc => by cases hc⟩
    · exact absurd heq (numberedSku_ne_describedSku (hpos n rfl) (hyphen_notMem_slug hx')
        (hyphen_notMem_slug hy') hw')
  · rcases hcases' with ⟨n', rfl, heq⟩ | ⟨rfl, x', y', hx', hy', heq⟩
    · exact absurd heq.symm (numberedSku_ne_describedSku (hpos' n' rfl) (hyphen_notMem_slug hx)
        (hyphen_notMem_slug hy) hw)
    · obtain ⟨rfl, rfl, rfl⟩ := describedSku_injective (hyphen_notMem_slug hx)
        (hyphen_notMem_slug hy) hw (hyphen_notMem_slug hx') (hyphen_notMem_slug hy') hw' heq
      exact ⟨rfl, fun _ => ⟨rfl, hx.trans hx'.symm, hy.trans hy'.symm⟩⟩

end SwedeSweets
