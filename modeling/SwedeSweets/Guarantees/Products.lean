import SwedeSweets.Guarantees.Stock
import SwedeSweets.Lib.Transition
import SwedeSweets.Products.Services
import SwedeSweets.Products.Skus

namespace SwedeSweets

open Relational Fallible Transition

/-!
# The product a request finds

A product keeps the SKU it was created with, while its number, brand and name may be edited.
`create_product` looks a request up by the SKU it derives, and only then by its number, so
`product_creation` says: the product found has that SKU or, when no product has it, that number.
What the request says and what the product says may differ once the product was edited, and
different spellings may make one SKU (`renumbered_product_found`).
-/

/-! ### Normalization -/

/-- A name fits its column. -/
theorem requireNameLength_eq_ok {value fieldName : String} {u : Unit} :
    requireNameLength value fieldName = .ok u ↔ value.length ≤ maxNameLength := require_eq_ok

/-- A required text is stripped, collapsed, not blank and short enough. -/
theorem normalizeRequiredText_eq_ok {value fieldName text : String} :
    normalizeRequiredText value fieldName = .ok text ↔
      text = Text.collapse (Text.strip value) ∧ text ≠ "" ∧ text.length ≤ maxNameLength := by
  unfold normalizeRequiredText
  simp only [bind_eq_ok, require_eq_ok, requireNameLength_eq_ok, exists_const, pure_eq_ok]
  constructor
  · rintro ⟨hne, hlen, rfl⟩
    exact ⟨rfl, hne, hlen⟩
  · rintro ⟨rfl, hne, hlen⟩
    exact ⟨hne, hlen, rfl⟩

/-- An optional text is stripped, collapsed and short enough. -/
theorem normalizeOptionalText_eq_ok {value fieldName text : String} :
    normalizeOptionalText value fieldName = .ok text ↔
      text = Text.collapse (Text.strip value) ∧ text.length ≤ maxNameLength := by
  unfold normalizeOptionalText
  simp only [bind_eq_ok, requireNameLength_eq_ok, exists_const, pure_eq_ok]
  constructor
  · rintro ⟨hlen, rfl⟩
    exact ⟨rfl, hlen⟩
  · rintro ⟨rfl, hlen⟩
    exact ⟨hlen, rfl⟩

/-- Normalized text is normalized to itself. -/
theorem normalizeRequiredText_again {value fieldName text : String}
    (h : normalizeRequiredText value fieldName = .ok text) (fieldName' : String) :
    normalizeRequiredText text fieldName' = .ok text := by
  obtain ⟨rfl, hne, hlen⟩ := normalizeRequiredText_eq_ok.mp h
  exact normalizeRequiredText_eq_ok.mpr ⟨(Text.collapse_strip_idem value).symm, hne, hlen⟩

/-- Normalizing twice is normalizing once. -/
theorem normalizeOptionalText_again {value fieldName text : String}
    (h : normalizeOptionalText value fieldName = .ok text) (fieldName' : String) :
    normalizeOptionalText text fieldName' = .ok text := by
  obtain ⟨rfl, hlen⟩ := normalizeOptionalText_eq_ok.mp h
  exact normalizeOptionalText_eq_ok.mpr ⟨(Text.collapse_strip_idem value).symm, hlen⟩

/-! ### What the services write -/

section

variable {rt : Runtime} {tables : SkuTables} {db db' : CatalogDb}

/-- Writing a profile leaves the products alone. -/
theorem products_setProductProfile {productPk : ℕ} {category description ingredients : String}
    (h : setProductProfile db productPk category description ingredients = .ok db') :
    db'.products = db.products := by
  unfold setProductProfile at h
  simp only [bind_eq_ok, pure_eq_ok] at h
  obtain ⟨-, -, -, -, -, -, rfl⟩ := h
  rfl

/-- Writing a translation leaves the products alone. -/
theorem products_setProductTranslation {productPk : ℕ} {languageCode name : String}
    (h : setProductTranslation db productPk languageCode name = .ok db') :
    db'.products = db.products := by
  unfold setProductTranslation at h
  obtain ⟨text, -, h⟩ := bind_eq_ok.mp h
  by_cases hempty : text = ""
  · rw [if_pos hempty, pure_eq_ok] at h
    exact h ▸ rfl
  · rw [if_neg hempty] at h
    obtain ⟨-, -, h⟩ := bind_eq_ok.mp h
    by_cases hnone : db.translations.select (translationOf productPk languageCode) = []
    · rw [if_pos hnone, pure_eq_ok] at h
      exact h ▸ rfl
    · rw [if_neg hnone, pure_eq_ok] at h
      exact h ▸ rfl

/-- A product says that it has this number. -/
def ProductRow.HasNumber (p : ProductRow) (n : ℤ) : Prop := p.internalNumber.map Int.ofNat = some n

instance (p : ProductRow) (n : ℤ) : Decidable (p.HasNumber n) :=
  inferInstanceAs (Decidable (_ = _))

/-- A product found has the SKU, or the number when no product has the SKU. -/
theorem findExisting_eq_some {sku : String} {number : Option ℤ} {p : ProductRow}
    (h : findExisting db sku number = some p) :
    p ∈ db.products ∧ (p.sku = sku ∨ (∀ q ∈ db.products, q.sku ≠ sku)
      ∧ ∃ n, number = some n ∧ p.HasNumber n) := by
  unfold findExisting at h
  -- The SKU is looked up before the number.
  cases hsku : findBySku db sku with
  | some q =>
    rw [hsku, Option.some.injEq] at h
    subst h
    exact ⟨List.mem_of_find?_eq_some hsku, Or.inl (by simpa using List.find?_some hsku)⟩
  | none =>
    rw [hsku] at h
    obtain ⟨n, rfl, hfind⟩ := Option.bind_eq_some_iff.mp h
    have hnone : ∀ q ∈ db.products, q.sku ≠ sku := by
      intro q hq
      simpa using List.find?_eq_none.mp hsku q hq
    unfold findByInternalNumber at hfind
    have hnumber := List.find?_some hfind
    exact ⟨List.mem_of_find?_eq_some hfind,
      Or.inr ⟨hnone, n, rfl, of_decide_eq_true hnumber⟩⟩

/-- No product is found when none has the SKU or the number. -/
theorem findExisting_eq_none {sku : String} {number : Option ℤ} :
    findExisting db sku number = none ↔
      (∀ q ∈ db.products, q.sku ≠ sku) ∧ ∀ n, number = some n → ∀ q ∈ db.products, ¬ q.HasNumber n := by
  constructor
  · intro h
    unfold findExisting at h
    cases hsku : findBySku db sku with
    | some q =>
      rw [hsku] at h
      cases h
    | none =>
      rw [hsku] at h
      refine ⟨fun q hq => by simpa using List.find?_eq_none.mp hsku q hq, ?_⟩
      rintro n rfl q hq hnumber
      have hnone : findByInternalNumber db n = none := h
      have hne := List.find?_eq_none.mp hnone q hq
      exact hne (decide_eq_true hnumber)
  · rintro ⟨hskus, hnumbers⟩
    cases hfind : findExisting db sku number with
    | none => rfl
    | some p =>
      obtain ⟨hp, hsku | ⟨-, n, hn, hnumber⟩⟩ := findExisting_eq_some hfind
      · exact absurd hsku (hskus p hp)
      · exact absurd hnumber (hnumbers n hn p hp)

/-- The row inserted has the SKU of its number, brand, name and weight. -/
theorem insertProduct_eq_ok {number : Option ℤ} {manufacturer brand name : String} {weight : ℤ}
    {stockUnit : StockUnit} {vegan : Bool} {user : Option ℕ} {r : CatalogDb × ProductRow}
    (hbrand : normalizeRequiredText brand "brand" = .ok brand)
    (hname : normalizeRequiredText name "name" = .ok name)
    (h : insertProduct rt tables db number manufacturer brand name weight stockUnit vegan user
      = .ok r) :
    ∃ sku manufacturer', makeSku rt tables number brand name weight = .ok sku ∧
      r.2 = (newProductRow rt (number.map Int.toNat) manufacturer' brand name weight.toNat stockUnit
        sku vegan user).make db.products.next ∧
      r.1 = { db with products := db.products.insert (newProductRow rt (number.map Int.toNat)
        manufacturer' brand name weight.toNat stockUnit sku vegan user) } := by
  unfold insertProduct at h
  simp only [bind_eq_ok, pure_eq_ok] at h
  obtain ⟨-, -, manufacturer', -, brand', hbrand', name', hname', -, -, sku, hsku, -, -, -, -, -, -,
    -, -, -, -, -, -, -, -, rfl⟩ := h
  -- The texts were normalized before, so they are inserted as they are.
  rw [hbrand, Except.ok.injEq] at hbrand'
  rw [hname, Except.ok.injEq] at hname'
  subst hbrand' hname'
  exact ⟨sku, manufacturer', hsku, rfl, rfl⟩

/-- What a request that returns did. -/
inductive Requested (rt : Runtime) (tables : SkuTables) (db : CatalogDb) (request : ProductRequest)
    (brand name sku : String) : CatalogDb → ServiceResult ProductRow → Prop where
  | found {p : ProductRow} (hfind : findExisting db sku request.internalNumber = some p) :
      Requested rt tables db request brand name sku db (alreadyExists p)
  | created {db' : CatalogDb} {d : NewRow ProductRow} {message : String} {n : Option ℕ}
      {manufacturer : String} {stockUnit : StockUnit} {user : Option ℕ}
      (hfind : findExisting db sku request.internalNumber = none)
      (hn : n = request.internalNumber.map Int.toNat)
      (hd : d = newProductRow rt n manufacturer brand name request.weightPerUnit.toNat stockUnit sku
        request.vegan user)
      (hproducts : db'.products = db.products.insert d) :
      Requested rt tables db request brand name sku db' ⟨d.make db.products.next, message, true⟩

/-- A creation that returns found a product or created one. -/
theorem createProduct_eq_ok {request : ProductRequest} {user : Option ℕ}
    {result : ServiceResult ProductRow}
    (h : createProduct rt tables db request user = .ok (db', result)) :
    ∃ brand name sku, normalizeRequiredText request.brand "brand" = .ok brand ∧
      normalizeRequiredText request.name "name" = .ok name ∧
      makeSku rt tables request.internalNumber brand name request.weightPerUnit = .ok sku ∧
      Requested rt tables db request brand name sku db' result := by
  unfold createProduct at h
  simp only [bind_eq_ok] at h
  obtain ⟨brand, hbrand, name, hname, manufacturer, -, -, -, -, -, stockUnit, -, _, -, sku, hsku, h⟩ := h
  refine ⟨brand, name, sku, hbrand, hname, hsku, ?_⟩
  -- A product found is returned as it is; only otherwise one is inserted.
  cases hfind : findExisting db sku request.internalNumber with
  | some p =>
    rw [hfind] at h
    simp only [pure_eq_ok, Prod.mk.injEq] at h
    obtain ⟨rfl, rfl⟩ := h
    exact Requested.found hfind
  | none =>
    rw [hfind] at h
    cases hinsert : insertProduct rt tables db request.internalNumber manufacturer brand name
        request.weightPerUnit stockUnit request.vegan user with
    | error e =>
      rw [hinsert] at h
      cases e <;> cases h
    | ok x =>
      obtain ⟨db₁, product⟩ := x
      rw [hinsert] at h
      simp only [bind_eq_ok, pure_eq_ok, Prod.mk.injEq] at h
      obtain ⟨db₂, hprofile, db₃, htranslation, rfl, rfl⟩ := h
      obtain ⟨sku', manufacturer', hsku', hproduct, hdb⟩ := insertProduct_eq_ok
        (normalizeRequiredText_again hbrand "brand") (normalizeRequiredText_again hname "name") hinsert
      rw [hsku, Except.ok.injEq] at hsku'
      subst hsku'
      simp only at hproduct hdb
      subst hproduct hdb
      exact Requested.created hfind rfl rfl
        ((products_setProductTranslation htranslation).trans (products_setProductProfile hprofile))

/-- Noting the change of activity keeps key, SKU and weight. -/
theorem markActiveChanged_keeps (p : ProductRow) (oldActive : Bool) (user : Option ℕ) :
    (p.markActiveChanged rt oldActive user).pk = p.pk
      ∧ (p.markActiveChanged rt oldActive user).sku = p.sku
      ∧ (p.markActiveChanged rt oldActive user).weightPerUnit = p.weightPerUnit := by
  unfold ProductRow.markActiveChanged
  split
  · exact ⟨rfl, rfl, rfl⟩
  · split <;> exact ⟨rfl, rfl, rfl⟩

/-- Updating writes one product, and neither its SKU nor its weight. -/
theorem updateProduct_eq_ok {productPk : ℕ} {edit : ProductEdit} {user : Option ℕ}
    (h : updateProduct rt db productPk edit user = .ok db') :
    ∀ q ∈ db'.products, ∃ p ∈ db.products, q.sku = p.sku ∧ q.weightPerUnit = p.weightPerUnit := by
  unfold updateProduct at h
  simp only [bind_eq_ok, orRaise_eq_ok, require_eq_ok, exists_const] at h
  obtain ⟨p, hp, -, -, _, -, -, manufacturer, -, brand, -, name, -, h⟩ := h
  have hpmem : p ∈ db.products := (Table.get?_eq_some.mp hp).1
  split at h
  · cases h
  · cases h
  · rename_i db₁ product hsave
    unfold saveProduct at hsave
    simp only [bind_eq_ok, pure_eq_ok, Prod.mk.injEq] at hsave
    obtain ⟨-, -, manufacturer', -, brand', -, name', -, -, -, -, -, -, -, -, -, -, -, rfl, rfl⟩ :=
      hsave
    simp only [bind_eq_ok] at h
    obtain ⟨db₂, hprofile, htranslation⟩ := h
    intro q hq
    rw [products_setProductTranslation htranslation, products_setProductProfile hprofile] at hq
    -- The row is saved twice at most, with its SKU and its weight.
    rcases Table.of_mem_put hq with rfl | ⟨hq, -⟩
    · obtain ⟨-, hsku, hweight⟩ := @markActiveChanged_keeps rt _ p.active user
      exact ⟨p, hpmem, hsku, hweight⟩
    · rcases Table.of_mem_put hq with rfl | ⟨hq, -⟩
      · exact ⟨p, hpmem, rfl, rfl⟩
      · exact ⟨q, hq, rfl, rfl⟩

end

/-! ### Runs of the catalog -/

inductive CatalogCall where
  | createProduct (request : ProductRequest) (user : Option ℕ)
  | updateProduct (productPk : ℕ) (edit : ProductEdit) (user : Option ℕ)

namespace CatalogCall

def run (rt : Runtime) (tables : SkuTables) (db : CatalogDb) : CatalogCall → Result CatalogDb
  | createProduct request user => (SwedeSweets.createProduct rt tables db request user).map Prod.fst
  | updateProduct productPk edit user => SwedeSweets.updateProduct rt db productPk edit user

/-- The number a request to create a product gives. -/
def requestedNumber : CatalogCall → Option ℤ
  | createProduct request _ => request.internalNumber
  | updateProduct .. => none

end CatalogCall

/-- A call returns, or it raises and leaves the catalog alone. -/
inductive CatalogStep (tables : SkuTables) :
    CatalogDb → Runtime × CatalogCall → CatalogDb → Prop where
  | returns {rt : Runtime} {call : CatalogCall} {db db' : CatalogDb} :
      call.run rt tables db = .ok db' → CatalogStep tables db (rt, call) db'
  | raises {rt : Runtime} {call : CatalogCall} {db : CatalogDb} {e : Error} :
      call.run rt tables db = .error e → CatalogStep tables db (rt, call) db

/-- The SKU of a product was made from its weight and some number, brand and name; when it was a
    number, one of these calls requested it. -/
def SkuOf (tables : SkuTables) (ms : List (Runtime × CatalogCall)) (p : ProductRow) : Prop :=
  ∃ rt number brand name, makeSku rt tables number brand name p.weightPerUnit = .ok p.sku
    ∧ ∀ n, number = some n → ∃ m ∈ ms, m.2.requestedNumber = some n

/-- An SKU comes from a longer run as well. -/
theorem SkuOf.mono {tables : SkuTables} {ms ms' : List (Runtime × CatalogCall)} {p q : ProductRow}
    (h : SkuOf tables ms p) (hms : ∀ m ∈ ms, m ∈ ms') (hsku : q.sku = p.sku)
    (hweight : q.weightPerUnit = p.weightPerUnit) : SkuOf tables ms' q := by
  obtain ⟨rt, number, brand, name, hmake, hnumber⟩ := h
  refine ⟨rt, number, brand, name, by rw [hsku, hweight]; exact hmake, fun n hn => ?_⟩
  obtain ⟨m, hm, hmn⟩ := hnumber n hn
  exact ⟨m, hms m hm, hmn⟩

/-- **Run.** Every product has a SKU made when it was created. -/
theorem skuOf_run {tables : SkuTables} {ms : List (Runtime × CatalogCall)} {db : CatalogDb}
    (h : Run (CatalogStep tables) .empty ms db) : ∀ p ∈ db.products, SkuOf tables ms p := by
  -- By induction on the run: SKUs are made at creation and never changed.
  induction h with
  | nil => exact fun p hp => absurd hp (Table.not_mem_empty p)
  | @snoc db₁ db₂ ms m _ hstep ih =>
    have hold : ∀ x ∈ ms, x ∈ ms ++ [m] := fun x hx => List.mem_append_left _ hx
    intro q hq
    cases hstep with
    | raises => exact (ih q hq).mono hold rfl rfl
    | @returns rt call _ _ hrun =>
      cases call with
      | updateProduct productPk edit user =>
        obtain ⟨p, hp, hsku, hweight⟩ := updateProduct_eq_ok hrun q hq
        exact (ih p hp).mono hold hsku hweight
      | createProduct request user =>
        rw [CatalogCall.run, map_eq_ok] at hrun
        obtain ⟨⟨db₂, result⟩, hcreate, rfl⟩ := hrun
        obtain ⟨brand, name, sku, -, -, hsku, hrequested⟩ := createProduct_eq_ok hcreate
        cases hrequested with
        | found hfind => exact (ih q hq).mono hold rfl rfl
        | created hfind hn hd hproducts =>
          rw [hproducts] at hq
          rcases Table.mem_insert.mp hq with hq | rfl
          · exact (ih q hq).mono hold rfl rfl
          · subst hd
            have hweight : ((request.weightPerUnit.toNat : ℕ) : ℤ) = request.weightPerUnit :=
              Int.toNat_of_nonneg (le_trans (by decide) (makeSku_eq_ok.mp hsku).1.1)
            refine ⟨rt, request.internalNumber, brand, name, ?_, fun n hn => ?_⟩
            · show makeSku rt tables request.internalNumber brand name
                ((request.weightPerUnit.toNat : ℕ) : ℤ) = .ok sku
              rw [hweight]
              exact hsku
            · exact ⟨(rt, .createProduct request user), by simp, hn⟩

/-! ### What a request gets -/

/-- The product still has the SKU that its own number, brand, name and weight make. -/
def Undrifted (rt : Runtime) (tables : SkuTables) (p : ProductRow) : Prop :=
  makeSku rt tables (p.internalNumber.map Int.ofNat) p.brand p.name p.weightPerUnit = .ok p.sku

/-- What a request with this brand, name and SKU gets. -/
structure Identified (rt : Runtime) (tables : SkuTables) (db : CatalogDb) (request : ProductRequest)
    (brand name sku : String) (db' : CatalogDb) (result : ServiceResult ProductRow) : Prop where
  normalizedBrand : normalizeRequiredText request.brand "brand" = .ok brand
  normalizedName : normalizeRequiredText request.name "name" = .ok name
  derivedSku : makeSku rt tables request.internalNumber brand name request.weightPerUnit = .ok sku
  /-- A product is created iff none has the SKU and none has the number. -/
  created : result.created = true ↔ (∀ p ∈ db.products, p.sku ≠ sku)
    ∧ ∀ n, request.internalNumber = some n → ∀ p ∈ db.products, ¬ p.HasNumber n
  /-- The product created is the one requested. -/
  new : result.created = true → result.item ∈ db'.products ∧ result.item ∉ db.products
    ∧ result.item.internalNumber.map Int.ofNat = request.internalNumber ∧ result.item.brand = brand
    ∧ result.item.name = name ∧ (result.item.weightPerUnit : ℤ) = request.weightPerUnit
    ∧ result.item.sku = sku
  /-- The product found has the SKU or, when no product has it, the number. -/
  found : result.created = false → db' = db ∧ result.item ∈ db.products
    ∧ (result.item.sku = sku ∨ (∀ p ∈ db.products, p.sku ≠ sku)
      ∧ ∃ n, request.internalNumber = some n ∧ result.item.HasNumber n)
  /-- Without a number, it always has the weight. -/
  weight : result.created = false → request.internalNumber = none →
    (result.item.weightPerUnit : ℤ) = request.weightPerUnit
  /-- Unless it was edited away from its SKU, it has the number, or the slugs, requested. -/
  undrifted : result.created = false → Undrifted rt tables result.item →
    (∀ n, request.internalNumber = some n → result.item.HasNumber n)
    ∧ (request.internalNumber = none → result.item.internalNumber = none
      ∧ slugifySkuPart rt tables result.item.brand = slugifySkuPart rt tables brand
      ∧ slugifySkuPart rt tables result.item.name = slugifySkuPart rt tables name)

/-- A request that passes every check, with a number and texts that their columns hold. -/
structure ValidRequest (request : ProductRequest) (n : ℤ) : Prop where
  number : request.internalNumber = some n ∧ 0 < n ∧ n ≤ maxSmallInteger
  brand : ∃ text, normalizeRequiredText request.brand "brand" = .ok text ∧
    FitsColumn maxNameLength text
  name : ∃ text, normalizeRequiredText request.name "name" = .ok text ∧
    FitsColumn maxNameLength text
  manufacturer : ∃ text, normalizeOptionalText request.manufacturer "manufacturer" = .ok text ∧
    FitsColumn maxNameLength text
  weight : validateWeightPerUnit request.weightPerUnit = .ok ()
  stockUnit : ∃ unit, validateStockUnit request.stockUnit = .ok unit
  category : ∃ category, validateProfileCategory request.category = .ok category
  customerFacingName :
    ∃ text, normalizeOptionalText request.customerFacingNameFr "customer-facing name" = .ok text ∧
      FitsColumn maxNameLength text
  description : '\x00' ∉ (Text.strip request.description).toList
  ingredients : '\x00' ∉ (Text.strip request.ingredients).toList

section

variable {rt : Runtime} {tables : SkuTables} {db : CatalogDb} {ms : List (Runtime × CatalogCall)}

/-- What a creation that returns identifies. -/
theorem identified_of_ok (hrun : Run (CatalogStep tables) .empty ms db) {request : ProductRequest}
    {user : Option ℕ} {db' : CatalogDb} {result : ServiceResult ProductRow}
    (h : createProduct rt tables db request user = .ok (db', result)) :
    ∃ brand name sku, Identified rt tables db request brand name sku db' result := by
  obtain ⟨brand, name, sku, hbrand, hname, hsku, hrequested⟩ := createProduct_eq_ok h
  refine ⟨brand, name, sku, ?_⟩
  cases hrequested with
  | @found p hfind =>
    obtain ⟨hp, hfound⟩ := findExisting_eq_some hfind
    -- the SKU of the product found was made when it was created
    obtain ⟨rt₀, number₀, brand₀, name₀, hmade, -⟩ := skuOf_run hrun p hp
    exact {
      normalizedBrand := hbrand
      normalizedName := hname
      derivedSku := hsku
      created := by
        rw [← findExisting_eq_none, hfind]
        constructor <;> intro hc <;> cases hc
      new := fun hc => by cases hc
      found := fun _ => ⟨rfl, hp, hfound⟩
      weight := fun _ hnone => by
        rcases hfound with heq | ⟨-, n, hn, -⟩
        · exact ((makeSku_inj (heq ▸ hsku) hmade).2 hnone).1.symm
        · rw [hnone] at hn
          cases hn
      undrifted := fun _ hown => by
        rcases hfound with heq | ⟨-, n, hn, hnumber⟩
        · obtain ⟨hnumbers, hslugs⟩ := makeSku_inj (heq ▸ hsku) hown
          refine ⟨fun n hn => hnumbers.symm.trans hn, fun hnone => ?_⟩
          obtain ⟨-, hb, hm⟩ := hslugs hnone
          exact ⟨Option.map_eq_none_iff.mp (hnumbers.symm.trans hnone), hb.symm, hm.symm⟩
        · refine ⟨fun n' hn' => ?_, fun hnone => ?_⟩
          · rw [hn, Option.some.injEq] at hn'
            exact hn' ▸ hnumber
          · rw [hnone] at hn
            cases hn }
  | @created _ d message n manufacturer stockUnit user hfind hn hd hproducts =>
    obtain ⟨⟨hw, -⟩, hpos, -⟩ := makeSku_eq_ok.mp hsku
    subst hn hd
    exact {
      normalizedBrand := hbrand
      normalizedName := hname
      derivedSku := hsku
      created := ⟨fun _ => findExisting_eq_none.mp hfind, fun _ => rfl⟩
      new := fun _ => by
        refine ⟨hproducts ▸ Table.mem_insert.mpr (Or.inr rfl), fun hmem => ?_, ?_, rfl, rfl,
          Int.toNat_of_nonneg (le_trans (by decide) hw), rfl⟩
        · exact Nat.lt_irrefl _ (db.products.bounded _ hmem)
        · show (request.internalNumber.map Int.toNat).map Int.ofNat = request.internalNumber
          cases hnumber : request.internalNumber with
          | none => rfl
          | some n => exact congrArg some (Int.toNat_of_nonneg (hpos n hnumber).le)
      found := fun hc => by cases hc
      weight := fun hc => by cases hc
      undrifted := fun hc => by cases hc }

/-- The SKU of a number fits its column. -/
theorem length_numberedSku_le {n : ℤ} (hpos : 0 < n) (hmax : n ≤ maxSmallInteger) :
    (numberedSku n).length ≤ maxSkuLength := by
  obtain ⟨k, rfl⟩ := Int.eq_ofNat_of_zero_le hpos.le
  have hk : k < 10 ^ 5 := by
    unfold maxSmallInteger at hmax
    omega
  have hpadded : (Text.padded skuInternalNumberWidth k).length ≤ 5 :=
    Text.length_padded_le (by decide) (by decide) hk
  have hprefix : (skuPrefix ++ "-").length = 3 := by decide
  unfold numberedSku maxSkuLength
  rw [Text.paddedInt_natCast, String.length_append, hprefix]
  omega

/-- A valid request for a number that no product has, and under which none was created, creates a
    product. -/
theorem creates_of_fresh {request : ProductRequest} {n : ℤ} (hvalid : ValidRequest request n)
    (hskus : ∀ p ∈ db.products, p.sku ≠ numberedSku n)
    (hnumbers : ∀ p ∈ db.products, ¬ p.HasNumber n) (user : Option ℕ) :
    ∃ r, createProduct rt tables db request user = .ok r ∧ r.2.created = true := by
  obtain ⟨⟨hn, hpos, hmax⟩, ⟨brand, hbrand, hbrandFits⟩, ⟨name, hname, hnameFits⟩,
    ⟨manufacturer, hmanufacturer, hmanufacturerFits⟩, hweight, ⟨unit, hunit⟩,
    ⟨category, hcategory⟩, ⟨french, hfrench, hfrenchFits⟩, hdescription, hingredients⟩ := hvalid
  have hnumber : validateInternalNumber (some n) = .ok () :=
    require_eq_ok.mpr (fun m hm => by cases hm; exact hpos)
  have hsku : makeSku rt tables (some n) brand name request.weightPerUnit = .ok (numberedSku n) := by
    unfold makeSku
    rw [hweight, hnumber]
    rfl
  -- Neither lookup finds a product.
  have hfind : findExisting db (numberedSku n) (some n) = none :=
    findExisting_eq_none.mpr ⟨hskus, fun m hm => by cases hm; exact hnumbers⟩
  have hcolumn : requireNumberColumn (some n) = .ok () :=
    require_eq_ok.mpr (fun m hm => by cases hm; exact hmax)
  have hunique : requireNumberUnique db db.products.next ((some n).map Int.toNat) = .ok () := by
    refine require_eq_ok.mpr (fun p hp _ hpn => absurd ?_ (hnumbers p hp))
    rw [ProductRow.HasNumber, hpn]
    exact congrArg some (Int.toNat_of_nonneg hpos.le)
  -- What was validated before is validated again by the insertion.
  have hinsert : ∃ x, insertProduct rt tables db (some n) manufacturer brand name
      request.weightPerUnit unit request.vegan user = .ok x := by
    unfold insertProduct
    simp only [bind_eq_ok, pure_eq_ok, require_eq_ok, requireFits_eq_ok, exists_const]
    exact ⟨_, (), hnumber, manufacturer, normalizeOptionalText_again hmanufacturer _, brand,
      normalizeRequiredText_again hbrand _, name, normalizeRequiredText_again hname _, (), hweight,
      numberedSku n, hsku, (), hcolumn, hmanufacturerFits, hbrandFits, hnameFits,
      length_numberedSku_le hpos hmax, hskus, (), hunique, rfl⟩
  obtain ⟨⟨db₁, product⟩, hinsert⟩ := hinsert
  obtain ⟨db₂, hprofile⟩ : ∃ db₂, setProductProfile db₁ product.pk request.category
      request.description request.ingredients = .ok db₂ := by
    unfold setProductProfile
    simp only [bind_eq_ok, requireText_eq_ok, exists_const, pure_eq_ok]
    exact ⟨_, category, hcategory, hdescription, hingredients, rfl⟩
  obtain ⟨db₃, htranslation⟩ : ∃ db₃, setProductTranslation db₂ product.pk customerFacingLanguageCode
      request.customerFacingNameFr = .ok db₃ := by
    unfold setProductTranslation
    have hfits : requireFits maxNameLength french = .ok () := requireFits_eq_ok.mpr hfrenchFits
    rw [hfrench]
    simp only [bind, Except.bind, hfits]
    split
    · exact ⟨_, rfl⟩
    · split <;> exact ⟨_, rfl⟩
  refine ⟨(db₃, ⟨product, "Product added to the catalog.", true⟩), ?_, rfl⟩
  unfold createProduct
  simp only [bind_eq_ok]
  refine ⟨brand, hbrand, name, hname, manufacturer, hmanufacturer, (), hweight, (), hn ▸ hnumber,
    unit, hunit, category, hcategory, numberedSku n, hn ▸ hsku, ?_⟩
  rw [hn, hfind]
  simp only [hinsert, bind_eq_ok, pure_eq_ok]
  exact ⟨db₂, hprofile, db₃, htranslation, rfl⟩

/-- **Product creation.** In every catalog the services reach, a request gets a new product exactly
    when no product has its SKU or its number, and else a product that has its SKU or, when none
    has, its number.  A number that no product has and no call requested before creates one. -/
theorem product_creation (hrun : Run (CatalogStep tables) .empty ms db) (rt : Runtime)
    (request : ProductRequest) (user : Option ℕ) :
    (∀ db' result, createProduct rt tables db request user = .ok (db', result) →
      ∃ brand name sku, Identified rt tables db request brand name sku db' result)
    ∧ ∀ n, ValidRequest request n → (∀ p ∈ db.products, ¬ p.HasNumber n) →
      (∀ m ∈ ms, m.2.requestedNumber ≠ some n) →
        ∃ r, createProduct rt tables db request user = .ok r ∧ r.2.created = true := by
  refine ⟨fun db' result h => identified_of_ok hrun h, fun n hvalid hnumbers hnever => ?_⟩
  refine creates_of_fresh hvalid (fun p hp hsku => ?_) hnumbers user
  -- the SKU of the number would have been made from it
  obtain ⟨rt₀, number, brand, name, hmade, hrequested⟩ := skuOf_run hrun p hp
  obtain ⟨-, hpos, hcases⟩ := makeSku_eq_ok.mp hmade
  rw [hsku] at hcases
  rcases hcases with ⟨n', rfl, heq⟩ | ⟨rfl, x, y, hx, hy, heq⟩
  · have hn : n = n' := numberedSku_injective hvalid.number.2.1 (hpos n' rfl) heq
    obtain ⟨m, hm, hmn⟩ := hrequested n' rfl
    exact hnever m hm (hn ▸ hmn)
  · exact numberedSku_ne_describedSku hvalid.number.2.1 (hyphen_notMem_slug hx)
      (hyphen_notMem_slug hy) (Int.natCast_nonneg _) heq

end

namespace Shop

/-- Tables that only know plain text. -/
def plainTables : SkuTables := ⟨id, Char.isAlphanum, by decide⟩

/-- A request for a product with this number. -/
def productRequest (number : ℤ) (name : String) : ProductRequest where
  brand := "Brand"
  name := name
  weightPerUnit := 100
  stockUnit := "box"
  internalNumber := some number
  manufacturer := ""
  vegan := false
  customerFacingNameFr := ""
  category := ""
  description := ""
  ingredients := ""

/-- A request for a product without a number. -/
def describedRequest (brand : String) : ProductRequest :=
  { productRequest 0 "Candy" with brand := brand, internalNumber := none }

/-- The example's request is valid. -/
theorem productRequest_valid {n : ℤ} (hpos : 0 < n) (hmax : n ≤ maxSmallInteger) :
    ValidRequest (productRequest n "Chips") n := by
  have hbrand : normalizeRequiredText "Brand" "brand" = .ok "Brand" :=
    normalizeRequiredText_eq_ok.mpr (by decide +kernel)
  have hname : normalizeRequiredText "Chips" "name" = .ok "Chips" :=
    normalizeRequiredText_eq_ok.mpr (by decide +kernel)
  have htext : '\x00' ∉ (Text.strip "").toList := by decide +kernel
  have hblank : ∀ fieldName, ∃ text, normalizeOptionalText "" fieldName = .ok text ∧
      FitsColumn maxNameLength text :=
    fun _ => ⟨"", normalizeOptionalText_eq_ok.mpr (by decide +kernel), by decide⟩
  exact {
    number := ⟨rfl, hpos, hmax⟩
    brand := ⟨"Brand", hbrand, by decide⟩
    name := ⟨"Chips", hname, by decide⟩
    manufacturer := hblank _
    weight := rfl
    stockUnit := ⟨.box, rfl⟩
    category := ⟨none, rfl⟩
    customerFacingName := hblank _
    description := htext
    ingredients := htext }

/-- The product gets the number six instead of five. -/
def renumber : ProductEdit where
  internalNumber := some 6
  manufacturer := ""
  brand := "Brand"
  name := "Candy"
  active := true
  vegan := false
  customerFacingNameFr := ""
  category := ""
  description := ""
  ingredients := ""

end Shop

/-- With product five in the catalog, a request for number six creates another product. -/
theorem product_creation_shop :
    ∃ db, (CatalogCall.createProduct (Shop.productRequest 5 "Candy") none).run (Shop.runtime 1)
        Shop.plainTables .empty = .ok db
      ∧ ∃ r, createProduct (Shop.runtime 2) Shop.plainTables db (Shop.productRequest 6 "Chips") none
        = .ok r ∧ r.2.created = true := by
  -- Products 5 and 6: the second request is for a fresh number.
  have hcomputed : ((CatalogCall.createProduct (Shop.productRequest 5 "Candy") none).run
      (Shop.runtime 1) Shop.plainTables .empty).toOption.any
        (fun db => ∀ p ∈ db.products, ¬ p.HasNumber 6) = true := by
    decide +kernel
  obtain ⟨db, hcreate, hnumbers⟩ := exists_of_any hcomputed
  have hrun : Run (CatalogStep Shop.plainTables) .empty
      [(Shop.runtime 1, .createProduct (Shop.productRequest 5 "Candy") none)] db :=
    Run.single (CatalogStep.returns hcreate)
  refine ⟨db, hcreate, (product_creation hrun (Shop.runtime 2) (Shop.productRequest 6 "Chips")
    none).2 6 (Shop.productRequest_valid (by decide) (by decide)) (of_decide_eq_true hnumbers)
    (fun m hm => ?_)⟩
  rw [List.mem_singleton.mp hm]
  decide

/-- **Renumbered.** Product five becomes product six.  A valid request for number five, which no
    product has any more, is answered with product six, whose SKU is still that of number five.
    **Spelled differently.** A request without a number for the brand `Brand.` is answered with a
    product of the brand `Brand`. -/
theorem renumbered_product_found :
    (∃ ms db, Run (CatalogStep Shop.plainTables) .empty ms db
      ∧ ValidRequest (Shop.productRequest 5 "Chips") 5 ∧ (∀ p ∈ db.products, ¬ p.HasNumber 5)
      ∧ ∃ r, createProduct (Shop.runtime 3) Shop.plainTables db (Shop.productRequest 5 "Chips") none
          = .ok r
        ∧ r.2.created = false ∧ r.2.item.HasNumber 6 ∧ r.2.item.name = "Candy"
        ∧ r.2.item.sku = "SS-005")
    ∧ ∃ ms db, Run (CatalogStep Shop.plainTables) .empty ms db
      ∧ normalizeRequiredText (Shop.describedRequest "Brand.").brand "brand" = .ok "Brand."
      ∧ ∃ r, createProduct (Shop.runtime 2) Shop.plainTables db (Shop.describedRequest "Brand.") none
          = .ok r
        ∧ r.2.created = false ∧ r.2.item.brand = "Brand" := by
  -- "Brand." and "Brand" have one slug, and so one SKU.
  have hspelled : ((CatalogCall.createProduct (Shop.describedRequest "Brand") none).run
      (Shop.runtime 1) Shop.plainTables .empty).toOption.any (fun db =>
        (createProduct (Shop.runtime 2) Shop.plainTables db (Shop.describedRequest "Brand.")
          none).toOption.any (fun r => r.2.created = false ∧ r.2.item.brand = "Brand")) = true := by
    decide +kernel
  -- Product 5 gets the number 6 and keeps the SKU of 5.
  have hcomputed : ((CatalogCall.createProduct (Shop.productRequest 5 "Candy") none).run
      (Shop.runtime 1) Shop.plainTables .empty).toOption.any (fun db =>
        ((CatalogCall.updateProduct 1 Shop.renumber none).run (Shop.runtime 2) Shop.plainTables
          db).toOption.any (fun db => (∀ p ∈ db.products, ¬ p.HasNumber 5)
            ∧ (createProduct (Shop.runtime 3) Shop.plainTables db (Shop.productRequest 5 "Chips")
              none).toOption.any (fun r => r.2.created = false ∧ r.2.item.HasNumber 6
                ∧ r.2.item.name = "Candy" ∧ r.2.item.sku = "SS-005") = true)) = true := by
    decide +kernel
  obtain ⟨db₁, hcreate, hcomputed⟩ := exists_of_any hcomputed
  obtain ⟨db₂, hupdate, hcomputed⟩ := exists_of_any hcomputed
  obtain ⟨hnumbers, hcomputed⟩ := of_decide_eq_true hcomputed
  obtain ⟨r, hfound, hr⟩ := exists_of_any hcomputed
  refine ⟨⟨_, db₂, (Run.single (CatalogStep.returns hcreate)).append
    (Run.single (CatalogStep.returns hupdate)),
    Shop.productRequest_valid (by decide) (by decide), hnumbers, r, hfound, of_decide_eq_true hr⟩, ?_⟩
  obtain ⟨db, hcreate, hspelled⟩ := exists_of_any hspelled
  obtain ⟨r, hfound, hr⟩ := exists_of_any hspelled
  exact ⟨_, db, Run.single (CatalogStep.returns hcreate),
    normalizeRequiredText_eq_ok.mpr (by decide +kernel), r, hfound, of_decide_eq_true hr⟩

end SwedeSweets
