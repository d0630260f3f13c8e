import SwedeSweets.Products.Catalog

namespace SwedeSweets

open Relational Fallible

/-!
# Product services

`createProduct` creates a product or returns an existing product with the same SKU or internal
number; `updateProduct` updates the editable catalog fields and the profile.  The SKU, the weight
and the stock unit of a product are never written again.
-/

structure ServiceResult (α : Type) where
  item : α
  message : String
  created : Bool

/-- The arguments of `create_product`. -/
structure ProductRequest where
  brand : String
  name : String
  weightPerUnit : ℤ
  stockUnit : String
  internalNumber : Option ℤ
  manufacturer : String
  vegan : Bool
  customerFacingNameFr : String
  category : String
  description : String
  ingredients : String

/-- The arguments of `update_product`. -/
structure ProductEdit where
  internalNumber : Option ℤ
  manufacturer : String
  brand : String
  name : String
  active : Bool
  vegan : Bool
  customerFacingNameFr : String
  category : String
  description : String
  ingredients : String

def customerFacingLanguageCode : String := "fr"

/-! ### Profile and translation -/

/-- The row `get_or_create` inserts. -/
def newProfile (productPk : ℕ) : NewRow ProductProfile where
  make pk := ⟨pk, productPk, none, "", "", "", ""⟩
  pk_make _ := rfl

def profileOf (productPk : ℕ) (p : ProductProfile) : Bool := p.productId = productPk

def profileTexts (category : Option ProductCategory) (description ingredients : String) :
    Edit ProductProfile where
  apply p := { p with category := category, description := description, ingredients := ingredients }
  pk_apply _ := rfl

/-- `_set_product_profile`. -/
def setProductProfile (db : CatalogDb) (productPk : ℕ) (category description ingredients : String) :
    Result CatalogDb := do
  let category ← validateProfileCategory category
  requireText (Text.strip description)
  requireText (Text.strip ingredients)
  let profiles := if db.profiles.select (profileOf productPk) = [] then
      db.profiles.insert (newProfile productPk) else db.profiles
  let texts := profileTexts category (Text.strip description) (Text.strip ingredients)
  return { db with profiles := profiles.modify (profileOf productPk) texts }

def translationOf (productPk : ℕ) (languageCode : String) (t : ProductTranslation) : Bool :=
  t.productId = productPk && t.languageCode = languageCode

def newTranslation (productPk : ℕ) (languageCode name : String) : NewRow ProductTranslation where
  make pk := ⟨pk, productPk, languageCode, name⟩
  pk_make _ := rfl

def translationName (name : String) : Edit ProductTranslation where
  apply t := { t with name := name }
  pk_apply _ := rfl

def setProductTranslation (db : CatalogDb) (productPk : ℕ) (languageCode name : String) :
    Result CatalogDb := do
  let normalizedName ← normalizeOptionalText name "customer-facing name"
  if normalizedName = "" then
    return { db with translations := db.translations.delete (translationOf productPk languageCode) }
  requireFits maxNameLength normalizedName
  if db.translations.select (translationOf productPk languageCode) = [] then
    let row := newTranslation productPk languageCode normalizedName
    return { db with translations := db.translations.insert row }
  let rename := translationName normalizedName
  return { db with
    translations := db.translations.modify (translationOf productPk languageCode) rename }

/-! ### Saving a product -/

/-- The column of the internal number holds a small integer. -/
def maxSmallInteger : ℤ := 32767

def requireNumberColumn (internalNumber : Option ℤ) : Result Unit :=
  require (∀ n ∈ internalNumber, n ≤ maxSmallInteger) (.dataError "smallint out of range")

/-- No row but the one of this key has the number. -/
def requireNumberUnique (db : CatalogDb) (pk : ℕ) (internalNumber : Option ℕ) : Result Unit :=
  require (∀ p ∈ db.products, internalNumber ≠ none → p.internalNumber = internalNumber → p.pk = pk)
    (.integrityError "internal_number")

/-- The row of a new product, as `mark_as_created` leaves it. -/
def newProductRow (rt : Runtime) (internalNumber : Option ℕ) (manufacturer brand name : String)
    (weightPerUnit : ℕ) (stockUnit : StockUnit) (sku : String) (vegan : Bool) (user : Option ℕ) :
    NewRow ProductRow where
  make pk :=
    { pk := pk
      internalNumber := internalNumber
      brand := brand
      name := name
      weightPerUnit := weightPerUnit
      sku := sku
      active := true
      manufacturer := manufacturer
      stockUnit := stockUnit
      vegan := vegan
      createdAt := rt.now
      createdBy := user
      editedAt := none
      editedBy := none
      activatedAt := some rt.now
      activatedBy := user
      deactivatedAt := none
      deactivatedBy := none }
  pk_make _ := rfl

/-- `Product.objects.create` and `mark_as_created`: normalize, assign the initial SKU, and insert
    behind the constraints of the table. -/
def insertProduct (rt : Runtime) (tables : SkuTables) (db : CatalogDb)
    (internalNumber : Option ℤ) (manufacturer brand name : String) (weightPerUnit : ℤ)
    (stockUnit : StockUnit) (vegan : Bool) (user : Option ℕ) : Result (CatalogDb × ProductRow) := do
  validateInternalNumber internalNumber
  let manufacturer ← normalizeOptionalText manufacturer "manufacturer"
  let brand ← normalizeRequiredText brand "brand"
  let name ← normalizeRequiredText name "name"
  validateWeightPerUnit weightPerUnit
  let sku ← makeSku rt tables internalNumber brand name weightPerUnit
  requireNumberColumn internalNumber
  requireFits maxNameLength manufacturer
  requireFits maxNameLength brand
  requireFits maxNameLength name
  require (sku.length ≤ maxSkuLength) (.dataError "value too long for type character varying(180)")
  require (∀ p ∈ db.products, p.sku ≠ sku) (.integrityError "sku")
  requireNumberUnique db db.products.next (internalNumber.map Int.toNat)
  let row := newProductRow rt (internalNumber.map Int.toNat) manufacturer brand name
    weightPerUnit.toNat stockUnit sku vegan user
  return ({ db with products := db.products.insert row }, row.make db.products.next)

/-! ### The services -/

def alreadyExists (product : ProductRow) : ServiceResult ProductRow :=
  ⟨product, "Product already exists in the catalog.", false⟩

/-- `Product.objects.filter(sku=sku).first()`; the column is unique. -/
def findBySku (db : CatalogDb) (sku : String) : Option ProductRow :=
  db.products.rows.find? (fun p => p.sku = sku)

def findByInternalNumber (db : CatalogDb) (internalNumber : ℤ) : Option ProductRow :=
  db.products.rows.find? (fun p => p.internalNumber.map Int.ofNat = some internalNumber)

/-- The product a request finds: by its SKU first, then by its internal number. -/
def findExisting (db : CatalogDb) (sku : String) (internalNumber : Option ℤ) : Option ProductRow :=
  match findBySku db sku with
  | some existing => some existing
  | none => internalNumber.bind (findByInternalNumber db)

/-- Create product or return existing product. -/
def createProduct (rt : Runtime) (tables : SkuTables) (db : CatalogDb) (request : ProductRequest)
    (user : Option ℕ) : Result (CatalogDb × ServiceResult ProductRow) := do
  let brand ← normalizeRequiredText request.brand "brand"
  let name ← normalizeRequiredText request.name "name"
  let manufacturer ← normalizeOptionalText request.manufacturer "manufacturer"
  validateWeightPerUnit request.weightPerUnit
  validateInternalNumber request.internalNumber
  let stockUnit ← validateStockUnit request.stockUnit
  let _ ← validateProfileCategory request.category
  let sku ← makeSku rt tables request.internalNumber brand name request.weightPerUnit
  match findExisting db sku request.internalNumber with
  | some existing => return (db, alreadyExists existing)
  | none =>
      match insertProduct rt tables db request.internalNumber manufacturer brand name
          request.weightPerUnit stockUnit request.vegan user with
      -- the look-up that follows is refused: the transaction is broken
      | .error (.integrityError _) => throw .transactionManagementError
      | .error e => throw e
      | .ok (db, product) => do
          let db ← setProductProfile db product.pk request.category request.description
            request.ingredients
          let db ← setProductTranslation db product.pk customerFacingLanguageCode
            request.customerFacingNameFr
          return (db, ⟨product, "Product added to the catalog.", true⟩)

/-- `mark_active_changed`. -/
def ProductRow.markActiveChanged (rt : Runtime) (self : ProductRow) (oldActive : Bool)
    (user : Option ℕ) : ProductRow :=
  if oldActive = self.active then self
  else if self.active then { self with activatedAt := some rt.now, activatedBy := user }
  else { self with deactivatedAt := some rt.now, deactivatedBy := user }

/-- `product.save(update_fields=...)` of the editable fields: normalized again, behind the
    constraints of the table. -/
def saveProduct (db : CatalogDb) (product : ProductRow) (internalNumber : Option ℤ) :
    Result (CatalogDb × ProductRow) := do
  validateInternalNumber internalNumber
  let manufacturer ← normalizeOptionalText product.manufacturer "manufacturer"
  let brand ← normalizeRequiredText product.brand "brand"
  let name ← normalizeRequiredText product.name "name"
  requireNumberColumn internalNumber
  requireFits maxNameLength manufacturer
  requireFits maxNameLength brand
  requireFits maxNameLength name
  let product := { product with
    internalNumber := internalNumber.map Int.toNat
    manufacturer := manufacturer
    brand := brand
    name := name }
  requireNumberUnique db product.pk product.internalNumber
  return ({ db with products := db.products.put product }, product)

/-- Update editable product catalog and profile data. -/
def updateProduct (rt : Runtime) (db : CatalogDb) (productPk : ℕ) (edit : ProductEdit)
    (user : Option ℕ) : Result CatalogDb := do
  let product ← orRaise (db.products.get? productPk) (.doesNotExist "Product")
  let oldActive := product.active
  validateInternalNumber edit.internalNumber
  let _ ← validateProfileCategory edit.category
  require (∀ n ∈ edit.internalNumber, ∀ p ∈ db.products,
      p.internalNumber.map Int.ofNat = some n → p.pk = product.pk)
    (.invalidProductData
      ("Product number " ++ toString (edit.internalNumber.getD 0) ++ " already exists"))
  let manufacturer ← normalizeOptionalText edit.manufacturer "manufacturer"
  let brand ← normalizeRequiredText edit.brand "brand"
  let name ← normalizeRequiredText edit.name "name"
  match saveProduct db { product with
      manufacturer := manufacturer, brand := brand, name := name, active := edit.active,
      vegan := edit.vegan } edit.internalNumber with
  | .error (.integrityError _) => throw (.invalidProductData "Could not update product")
  | .error e => throw e
  | .ok (db, product) => do
      let product := { product with editedAt := some rt.now, editedBy := user }
      let product := product.markActiveChanged rt oldActive user
      let db := { db with products := db.products.put product }
      let db ← setProductProfile db product.pk edit.category edit.description edit.ingredients
      setProductTranslation db product.pk customerFacingLanguageCode edit.customerFacingNameFr

end SwedeSweets
