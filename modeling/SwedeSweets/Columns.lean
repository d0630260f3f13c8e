import SwedeSweets.Runtime
import Mathlib.Algebra.GroupWithZero.Nat

namespace SwedeSweets

open Fallible

/-!
# Columns

What a column of the database admits.  A write with a value beyond it raises, and the
transaction it is part of comes to nothing:

* `requireText` — a `text` column holds no NUL character;
* `requireFits` — a `varchar` column holds so many characters, none of them NUL (`FitsColumn`);
* `requireInteger` — an `integer` column holds four bytes;
* `requireNumeric` — a `numeric` column holds so many digits.

`varchar` cuts off blanks beyond its length instead of raising.  Texts are stripped before they
reach a column, all but a provider's payment id and the reason of a cancellation; of these, one
that is too long is refused whatever it ends in.
-/

/-- A text that a column of this length holds. -/
def FitsColumn (maxLength : ℕ) (value : String) : Prop :=
  '\x00' ∉ value.toList ∧ value.length ≤ maxLength

instance (maxLength : ℕ) (value : String) : Decidable (FitsColumn maxLength value) := by
  unfold FitsColumn; infer_instance

/-- What a `text` column admits. -/
def requireText (value : String) : Result Unit :=
  require ('\x00' ∉ value.toList)
    (.dataError "PostgreSQL text fields cannot contain NUL (0x00) bytes")

/-- What a `varchar` column admits. -/
def requireFits (maxLength : ℕ) (value : String) : Result Unit := do
  requireText value
  require (value.length ≤ maxLength)
    (.dataError ("value too long for type character varying(" ++ toString maxLength ++ ")"))

/-- The greatest number of an `integer` column. -/
def maxInteger : ℕ := 2147483647

/-- What an `integer` column admits. -/
def requireInteger (value : ℕ) : Result Unit :=
  require (value ≤ maxInteger) (.dataError "integer out of range")

/-- What a `numeric` column admits of a number that it holds without fraction. -/
def requireNumeric (digits : ℕ) (value : ℤ) : Result Unit :=
  require (value.natAbs < 10 ^ digits) (.dataError "numeric field overflow")

/-- Writing a text of any length succeeds iff it has no NUL. -/
@[simp] theorem requireText_eq_ok {value : String} {u : Unit} :
    requireText value = .ok u ↔ '\x00' ∉ value.toList := by
  unfold requireText
  exact require_eq_ok

/-- Writing a text succeeds iff the column holds it. -/
@[simp] theorem requireFits_eq_ok {maxLength : ℕ} {value : String} {u : Unit} :
    requireFits maxLength value = .ok u ↔ FitsColumn maxLength value := by
  unfold requireFits FitsColumn
  simp only [bind_eq_ok, requireText_eq_ok, require_eq_ok, exists_const]

/-- Writing a number succeeds iff it takes four bytes at most. -/
@[simp] theorem requireInteger_eq_ok {value : ℕ} {u : Unit} :
    requireInteger value = .ok u ↔ value ≤ maxInteger := by
  unfold requireInteger
  exact require_eq_ok

/-- Writing an amount succeeds iff its digits suffice. -/
@[simp] theorem requireNumeric_eq_ok {digits : ℕ} {value : ℤ} {u : Unit} :
    requireNumeric digits value = .ok u ↔ value.natAbs < 10 ^ digits := by
  unfold requireNumeric
  exact require_eq_ok

end SwedeSweets
