import SwedeSweets.Catalog
import SwedeSweets.Columns

namespace SwedeSweets

open Relational Fallible

/-!
# The product catalog

* `normalizeRequiredText`, `normalizeOptionalText` and the validators of catalog data;
* `makeSku`, the stock keeping unit a product is created with: from its internal number when it
  has one, else from its brand, its name and its weight;
* `ProductRow`, `ProductProfile` and `ProductTranslation`, the rows of the catalog tables.
-/

def maxNameLength : ℕ := 160
def maxSkuLength : ℕ := 180

def minWeightPerUnit : ℤ := 1
def maxWeightPerUnit : ℤ := 50000

def skuPrefix : String := "SS"
def skuInternalNumberWidth : ℕ := 3

/-! ### Normalization and validation -/

/-- The length limit both normalizations have. -/
def requireNameLength (value fieldName : String) : Result Unit :=
  require (value.length ≤ maxNameLength)
    (.invalidProductData (fieldName ++ " must be at most " ++ toString maxNameLength ++ " characters"))

def normalizeRequiredText (value fieldName : String) : Result String := do
  let value := Text.collapse (Text.strip value)
  require (value ≠ "") (.invalidProductData (fieldName ++ " must not be empty"))
  requireNameLength value fieldName
  return value

def normalizeOptionalText (value fieldName : String) : Result String := do
  let value := Text.collapse (Text.strip value)
  requireNameLength value fieldName
  return value

def validateWeightPerUnit (weightPerUnit : ℤ) : Result Unit := do
  require (minWeightPerUnit ≤ weightPerUnit)
    (.invalidProductData ("weight_per_unit must be at least " ++ toString minWeightPerUnit))
  require (weightPerUnit ≤ maxWeightPerUnit)
    (.invalidProductData ("weight_per_unit must be at most " ++ toString maxWeightPerUnit))

def validateInternalNumber (internalNumber : Option ℤ) : Result Unit :=
  require (∀ n ∈ internalNumber, 0 < n) (.invalidProductData "internal_number must be positive")

/-! ### The stock keeping unit -/

/-- The Unicode tables a SKU is made with; a hyphen is neither a letter nor a digit. -/
structure SkuTables where
  /-- `str.casefold`. -/
  casefold : String → String
  /-- `str.isalnum` on one character. -/
  isalnum : Char → Bool
  isalnum_hyphen : isalnum '-' = false

/-- The loop over the characters; `separated` is `previous_was_separator`. -/
def slugChars (isalnum : Char → Bool) (separated : Bool) : List Char → List Char
  | [] => []
  | c :: cs =>
      if isalnum c then c :: slugChars isalnum false cs
      else if separated then slugChars isalnum true cs
      else '_' :: slugChars isalnum true cs

/-- `.strip("_")`. -/
def stripUnderscores (cs : List Char) : List Char :=
  ((cs.dropWhile (· = '_')).reverse.dropWhile (· = '_')).reverse

def slugifySkuPart (rt : Runtime) (tables : SkuTables) (value : String) : Result String := do
  let value ← normalizeRequiredText value "sku part"
  return String.ofList (stripUnderscores
    (slugChars tables.isalnum false (rt.upper (tables.casefold value)).toList))

def makeSku (rt : Runtime) (tables : SkuTables) (internalNumber : Option ℤ) (brand name : String)
    (weightPerUnit : ℤ) : Result String := do
  validateWeightPerUnit weightPerUnit
  validateInternalNumber internalNumber
  match internalNumber with
  | some n => return skuPrefix ++ "-" ++ Text.paddedInt skuInternalNumberWidth n
  | none => do
      let brand ← slugifySkuPart rt tables brand
      let name ← slugifySkuPart rt tables name
      return brand ++ "-" ++ name ++ "-" ++ toString weightPerUnit

/-! ### Rows -/

inductive StockUnit where
  | box | piece | bag | case
  deriving DecidableEq, Repr

def StockUnit.value : StockUnit → String
  | .box => "box"
  | .piece => "piece"
  | .bag => "bag"
  | .case => "case"

def StockUnit.all : List StockUnit := [.box, .piece, .bag, .case]

inductive ProductCategory where
  | candy | chips | dipMix | merchandise
  deriving DecidableEq, Repr

def ProductCategory.value : ProductCategory → String
  | .candy => "candy"
  | .chips => "chips"
  | .dipMix => "dip_mix"
  | .merchandise => "merchandise"

def ProductCategory.all : List ProductCategory := [.candy, .chips, .dipMix, .merchandise]

/-- `_validate_stock_unit`, with the unit a valid value stands for. -/
def validateStockUnit (stockUnit : String) : Result StockUnit :=
  orRaise (StockUnit.all.find? (fun u => u.value = stockUnit))
    (.invalidProductData ("Unsupported stock unit: " ++ stockUnit))

/-- `_validate_profile_category`; the empty text stands for no category. -/
def validateProfileCategory (category : String) : Result (Option ProductCategory) :=
  if category = "" then return none
  else do
    let c ← orRaise (ProductCategory.all.find? (fun c => c.value = category))
      (.invalidProductData ("Unsupported product category: " ++ category))
    return some c

/-- A product with its catalog data and its stamps. -/
structure ProductRow extends Product where
  manufacturer : String
  stockUnit : StockUnit
  vegan : Bool
  createdAt : Time
  createdBy : Option ℕ
  editedAt : Option Time
  editedBy : Option ℕ
  activatedAt : Option Time
  activatedBy : Option ℕ
  deactivatedAt : Option Time
  deactivatedBy : Option ℕ
  deriving DecidableEq, Repr

instance : Row ProductRow := ⟨fun p => p.pk⟩

@[simp] theorem pk_productRow (p : ProductRow) : Row.pk p = p.pk := rfl

/-- Optional catalog data of a product; `image` and `thumbnail` are the names of stored files,
    empty when there is none. -/
structure ProductProfile where
  pk : ℕ
  productId : ℕ
  category : Option ProductCategory
  description : String
  ingredients : String
  image : String
  thumbnail : String
  deriving DecidableEq, Repr

instance : Row ProductProfile := ⟨ProductProfile.pk⟩

@[simp] theorem pk_productProfile (p : ProductProfile) : Row.pk p = p.pk := rfl

structure ProductTranslation where
  pk : ℕ
  productId : ℕ
  languageCode : String
  name : String
  deriving DecidableEq, Repr

instance : Row ProductTranslation := ⟨ProductTranslation.pk⟩

@[simp] theorem pk_productTranslation (t : ProductTranslation) : Row.pk t = t.pk := rfl

/-- The tables of the catalog. -/
structure CatalogDb where
  products : Table ProductRow
  profiles : Table ProductProfile
  translations : Table ProductTranslation

def CatalogDb.empty : CatalogDb := ⟨.empty, .empty, .empty⟩

end SwedeSweets
