import SwedeSweets.Lib.Table
import SwedeSweets.Runtime
import Mathlib.Data.Rat.Floor
import Mathlib.Algebra.Order.Archimedean.Basic

namespace SwedeSweets

open Relational Fallible

/-!
# Products and commercial offers

* `Product` and its conversion of external quantities to whole stock units
  (`quantityToUnits`);
* `CommercialPrice`, the offer of a product in one sales channel — product-wide when it
  has no batch, else tied to that one batch — with its `PriceAmount`s.

Money is counted in cents.
-/

/-- An amount of money, in cents. -/
abbrev Cents := ℕ

inductive Channel where
  | business | retail
  deriving DecidableEq, Repr

inductive Currency where
  | eur | sek
  deriving DecidableEq, Repr

structure Product where
  pk : ℕ
  internalNumber : Option ℕ
  brand : String
  name : String
  weightPerUnit : ℕ
  sku : String
  active : Bool
  deriving DecidableEq, Repr

instance : Row Product := ⟨Product.pk⟩

@[simp] theorem pk_product (p : Product) : Row.pk p = p.pk := rfl

/-- Human-readable product name: brand and name, the empty ones left out. -/
def Product.displayName (p : Product) : String :=
  String.intercalate " — " ([p.brand, p.name].filter (· ≠ ""))

/-- One currency-specific amount; the table only admits positive prices. -/
structure PriceAmount where
  currency : Currency
  price : Cents
  originalPrice : Option Cents
  price_pos : 0 < price
  deriving DecidableEq, Repr

structure CommercialPrice where
  pk : ℕ
  productId : ℕ
  batchId : Option ℕ
  channel : Channel
  reason : String
  enabled : Bool
  amounts : List PriceAmount
  deriving DecidableEq, Repr

instance : Row CommercialPrice := ⟨CommercialPrice.pk⟩

@[simp] theorem pk_commercialPrice (o : CommercialPrice) : Row.pk o = o.pk := rfl

/-- The amount of an offer in a currency (`_find_amount`, `amounts.get(currency=...)`). -/
def CommercialPrice.findAmount (o : CommercialPrice) (currency : Currency) :
    Option PriceAmount :=
  o.amounts.find? (fun a => a.currency = currency)

/-! ### Units -/

/-- The units in which an order quantity may be given. -/
inductive OrderUnit where
  | stock | kg | grams
  deriving DecidableEq, Repr

/-- The unit a text stands for, whatever its case and the blanks around it. -/
def normalizeOrderUnit (unit : String) : Result OrderUnit :=
  match Text.lower (Text.strip unit) with
  | "stock_unit" => return .stock
  | "kg" => return .kg
  | "grams" => return .grams
  | _ => throw (.unsupportedOrderUnit ("Unsupported order unit: " ++ unit))

/-- Grams in whole stock units, rounded up. -/
def Product.gramsToUnits (p : Product) (grams : ℤ) : Result ℤ := do
  require (0 < grams) (.invalidProductData "grams must be positive")
  return (grams + p.weightPerUnit - 1) / p.weightPerUnit

/-- Kilograms in whole stock units; fractions of a gram are rounded up first. -/
def Product.kgToUnits (p : Product) (kg : ℚ) : Result ℤ := do
  require (0 < kg) (.invalidProductData "kg must be positive")
  p.gramsToUnits ⌈kg * 1000⌉

/-- Whole stock units in grams. -/
def Product.unitsToGrams (p : Product) (units : ℤ) : Result ℤ := do
  require (0 < units) (.invalidProductData "units must be positive")
  return units * p.weightPerUnit

/-- Whole stock units in kilograms. -/
def Product.unitsToKg (p : Product) (units : ℤ) : Result ℚ := do
  let grams ← p.unitsToGrams units
  return grams / 1000

/-- Convert an external order quantity into whole product stock units. -/
def quantityToUnits (p : Product) (quantity : ℚ) (unit : OrderUnit) : Result ℤ := do
  require (0 < quantity) (.invalidProductData "quantity must be positive")
  match unit with
  | .stock =>
      require (quantity = ⌊quantity⌋)
        (.invalidProductData "stock unit orders must use a whole number")
      return ⌊quantity⌋
  | .grams =>
      require (quantity = ⌊quantity⌋)
        (.invalidProductData "gram orders must use a whole number")
      p.gramsToUnits ⌊quantity⌋
  | .kg => p.kgToUnits quantity

end SwedeSweets
