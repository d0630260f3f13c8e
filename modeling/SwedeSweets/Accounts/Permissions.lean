import SwedeSweets.Lib.Fallible
import SwedeSweets.Lib.Table
import SwedeSweets.Runtime

namespace SwedeSweets

open Relational Fallible

/-!
# Accounts, roles and capabilities

The rows behind a login — the user, the staff account and the customer membership that may
hang on it — and what they allow: `resolveAccountRole` gives the business role of a user,
`getRoleSpec` the capabilities of a role.
-/

/-- The exceptions of the accounts app and of the access middleware. -/
inductive AccountError where
  | invalidAccountIdentity (message : String)
  | accountCreationError (message : String)
  | permissionDenied (message : String)
  | redirectToLogin
  | doesNotExist (model : String)
  deriving DecidableEq, Repr

/-! ### Roles -/

inductive Capability where
  | viewStaffOps | viewBusinessPortal
  | manageAccounts | viewOwnAccount | editOwnAccount
  | viewOrders | createOrders | editOrders | cancelOrders | packOrders | deliverOrders
  | viewInventory | createBatches | editBatches | closeBatches | viewInventoryRisks
  | viewOpsProducts | createProducts | editProducts
  | viewCustomers | createCustomers | editCustomers
  | placeBusinessOrders | viewOwnOrders
  deriving DecidableEq, Repr

inductive StaffAccessLevel where
  | restricted | full
  deriving DecidableEq, Repr

/-- `StaffAccessLevel(value)`. -/
def StaffAccessLevel.ofValue : String → Option StaffAccessLevel
  | "restricted" => some .restricted
  | "full" => some .full
  | _ => none

inductive AccountRole where
  | owner | fullStaff | restrictedStaff | businessCustomer | unknown
  deriving DecidableEq, Repr

structure RoleSpec where
  capabilities : List Capability

def RoleSpec.allows (spec : RoleSpec) (capability : Capability) : Bool :=
  spec.capabilities.contains capability

def staffCapabilities : List Capability :=
  [.viewStaffOps, .manageAccounts, .viewOwnAccount, .viewOrders, .createOrders, .editOrders,
    .cancelOrders, .packOrders, .deliverOrders, .viewInventory, .createBatches, .editBatches,
    .closeBatches, .viewInventoryRisks, .viewOpsProducts, .createProducts, .editProducts,
    .viewCustomers, .createCustomers, .editCustomers]

def restrictedStaffCapabilities : List Capability :=
  [.viewStaffOps, .viewOwnAccount, .editOwnAccount, .viewOrders, .packOrders, .deliverOrders,
    .viewInventory, .createBatches, .viewOpsProducts, .viewCustomers]

def businessCustomerCapabilities : List Capability :=
  [.viewBusinessPortal, .viewOwnAccount, .editOwnAccount, .placeBusinessOrders, .viewOwnOrders]

def getRoleSpec : AccountRole → RoleSpec
  | .owner => ⟨staffCapabilities⟩
  | .fullStaff => ⟨staffCapabilities⟩
  | .restrictedStaff => ⟨restrictedStaffCapabilities⟩
  | .businessCustomer => ⟨businessCustomerCapabilities⟩
  | .unknown => ⟨[]⟩

/-! ### Rows -/

structure User where
  pk : ℕ
  username : String
  email : String
  firstName : String
  lastName : String
  isActive : Bool
  isSuperuser : Bool
  deriving DecidableEq, Repr

instance : Row User := ⟨User.pk⟩

@[simp] theorem pk_user (u : User) : Row.pk u = u.pk := rfl

/-- A staff account, keyed by its user: the relation is one-to-one.  The level is `none` when
    the column holds a text that is none of the choices. -/
structure StaffAccount where
  userId : ℕ
  accessLevel : Option StaffAccessLevel
  deriving DecidableEq, Repr

instance : Row StaffAccount := ⟨StaffAccount.userId⟩

@[simp] theorem pk_staffAccount (s : StaffAccount) : Row.pk s = s.userId := rfl

/-- The link of a user to a customer, keyed by its user. -/
structure CustomerMembership where
  userId : ℕ
  customerId : ℕ
  deriving DecidableEq, Repr

instance : Row CustomerMembership := ⟨CustomerMembership.userId⟩

/-- The tables behind a login. -/
structure Accounts where
  users : Table User
  staffAccounts : Table StaffAccount
  customerMemberships : Table CustomerMembership

/-! ### Permissions -/

/-- The business role of an authenticated user. -/
def resolveAccountRole (db : Accounts) (user : User) : Except AccountError AccountRole :=
  if user.isSuperuser then return .owner
  else
    match db.staffAccounts.get? user.pk, db.customerMemberships.get? user.pk with
    | some _, some _ => throw (.invalidAccountIdentity
        "A user cannot be linked to both staff and customer profiles.")
    | some staffAccount, none =>
        match staffAccount.accessLevel with
        | some .full => return .fullStaff
        | some .restricted => return .restrictedStaff
        | none => throw (.invalidAccountIdentity "Unknown staff access level")
    | none, some _ => return .businessCustomer
    | none, none => return .unknown

/-- The middlewares on a protected view: an inactive user is not authenticated, an identity
    that is not valid is denied, and the role must allow what the view requires. -/
def processView (db : Accounts) (userPk : ℕ) (required : Capability) : Except AccountError Unit := do
  let user ← orRaise ((db.users.get? userPk).filter User.isActive) .redirectToLogin
  let role ← (resolveAccountRole db user).mapError
    (fun _ => .permissionDenied "Invalid account identity.")
  require ((getRoleSpec role).allows required = true)
    (.permissionDenied "You do not have permission to access this page.")

/-- The account is active and holds MANAGE_ACCOUNTS. -/
def ManagesAccounts (db : Accounts) (userPk : ℕ) : Prop :=
  ∃ user, db.users.get? userPk = some user ∧ user.isActive = true ∧
    ∃ role, resolveAccountRole db user = .ok role
      ∧ (getRoleSpec role).allows .manageAccounts = true

/-- The middlewares let pass exactly who holds the capability and is active. -/
theorem processView_eq_ok {db : Accounts} {userPk : ℕ} :
    processView db userPk .manageAccounts = .ok () ↔ ManagesAccounts db userPk := by
  unfold processView ManagesAccounts
  simp only [bind_eq_ok, orRaise_eq_ok, Option.filter_eq_some_iff, mapError_eq_ok, require_eq_ok,
    and_assoc]

/-- Who manages accounts is the owner or full staff. -/
theorem allows_manageAccounts {role : AccountRole} :
    (getRoleSpec role).allows .manageAccounts = true ↔ role = .owner ∨ role = .fullStaff := by
  cases role <;> decide

/-- The owner is a superuser; full staff has a staff account of that level and is no customer. -/
theorem resolveAccountRole_manages {db : Accounts} {user : User} :
    (∃ role, resolveAccountRole db user = .ok role
      ∧ (getRoleSpec role).allows .manageAccounts = true) ↔
      user.isSuperuser = true ∨ (db.customerMemberships.get? user.pk = none ∧
        ∃ staffAccount, db.staffAccounts.get? user.pk = some staffAccount
          ∧ staffAccount.accessLevel = some .full) := by
  unfold resolveAccountRole
  cases user.isSuperuser with
  | true => simp [allows_manageAccounts]
  | false =>
    -- a staff account counts only for a user who is not a customer
    cases hstaff : db.staffAccounts.get? user.pk with
    | none => cases db.customerMemberships.get? user.pk <;> simp [allows_manageAccounts]
    | some staffAccount =>
      cases db.customerMemberships.get? user.pk with
      | some membership => simp
      | none =>
        cases hlevel : staffAccount.accessLevel with
        | none => simp [hlevel]
        | some level => cases level <;> simp [hlevel, allows_manageAccounts]

end SwedeSweets
