import SwedeSweets.Lib.Table
import SwedeSweets.Runtime

namespace SwedeSweets

open Relational Fallible

/-!
# Customers

`Customer` owns contact and delivery address data and its audit stamps.
-/

structure Customer where
  pk : ℕ
  name : String
  email : String
  phoneNumber : String
  country : String
  city : String
  addressLine : String
  isActive : Bool
  createdAt : Time
  editedAt : Option Time
  activatedAt : Option Time
  deactivatedAt : Option Time
  createdBy : Option ℕ
  editedBy : Option ℕ
  activatedBy : Option ℕ
  deactivatedBy : Option ℕ
  deriving DecidableEq, Repr

instance : Row Customer := ⟨Customer.pk⟩

@[simp] theorem pk_customer (c : Customer) : Row.pk c = c.pk := rfl

end SwedeSweets
