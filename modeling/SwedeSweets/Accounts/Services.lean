import SwedeSweets.Accounts.Permissions

namespace SwedeSweets

open Relational Fallible

/-!
# Account services

`updateInternalAccount`, the only way the portal changes what a staff account may do.
`updateInternalAccount_eq_ok` says when it succeeds and what it writes, and
`ManagesAccounts.of_update` what that means for who manages accounts.
-/

/-- What the form for an internal account asks to write. -/
structure InternalAccountUpdate where
  userId : ℕ
  email : String
  firstName : String
  lastName : String
  accessLevel : String
  isActive : Bool
  deriving DecidableEq, Repr

/-- `strip().lower()`; an account email must not be empty. -/
def normalizeEmail (lower : String → String) (value : String) : Except AccountError String := do
  let email := lower (Text.strip value)
  require (email ≠ "") (.accountCreationError "Account email must not be empty.")
  return email

/-- The checks on an update, against the locked rows. -/
def validateInternalAccountUpdate (db : Accounts) (user : User) (staffAccount : StaffAccount)
    (email : String) (accessLevel : StaffAccessLevel) (isActive : Bool) (actorPk : ℕ) :
    Except AccountError Unit := do
  require (db.users.select (fun u => u.username = email && u.pk ≠ user.pk) = [])
    (.accountCreationError "An account with this email already exists.")
  require (db.users.select (fun u => u.email = email && u.pk ≠ user.pk) = [])
    (.accountCreationError "An account with this email already exists.")
  require (¬(user.pk = actorPk ∧ isActive = false))
    (.accountCreationError "You cannot deactivate your own account.")
  require (¬(user.pk = actorPk ∧ staffAccount.accessLevel = some .full
      ∧ accessLevel = .restricted))
    (.accountCreationError "You cannot remove your own account management access.")

/-- The user row with the fields of the form. -/
def User.fill (user : User) (update : InternalAccountUpdate) (email : String) : User :=
  { user with
    username := email
    email := email
    firstName := Text.strip update.firstName
    lastName := Text.strip update.lastName
    isActive := update.isActive }

/-- Update an internal account on behalf of `actorPk`.  The call is one transaction, so what
    the check on user names has seen still holds when the row is saved, and the branch of the
    source for a violated unique constraint has no counterpart. -/
def updateInternalAccount (lower : String → String) (db : Accounts)
    (update : InternalAccountUpdate) (actorPk : ℕ) : Except AccountError Accounts := do
  let accessLevel ← orRaise (StaffAccessLevel.ofValue update.accessLevel)
    (.accountCreationError "Choose a valid staff access level.")
  let email ← normalizeEmail lower update.email
  let staffAccount ← orRaise (db.staffAccounts.get? update.userId) (.doesNotExist "StaffAccount")
  let user ← orRaise (db.users.get? update.userId) (.doesNotExist "User")
  validateInternalAccountUpdate db user staffAccount email accessLevel update.isActive actorPk
  return { db with
    users := db.users.put (user.fill update email)
    staffAccounts := db.staffAccounts.put { staffAccount with accessLevel := some accessLevel } }

/-- The database after an update that went through. -/
def Accounts.updated (db : Accounts) (user : User) (staffAccount : StaffAccount)
    (update : InternalAccountUpdate) (email : String) (accessLevel : StaffAccessLevel) : Accounts :=
  { db with
    users := db.users.put (user.fill update email)
    staffAccounts := db.staffAccounts.put { staffAccount with accessLevel := some accessLevel } }

/-- What a successful update found and wrote; an actor keeps its own account active, and does
    not turn its own full access into a restricted one. -/
theorem updateInternalAccount_eq_ok {lower : String → String} {db db' : Accounts}
    {update : InternalAccountUpdate} {actorPk : ℕ}
    (h : updateInternalAccount lower db update actorPk = .ok db') :
    ∃ user staffAccount accessLevel email,
      db.users.get? update.userId = some user
      ∧ db.staffAccounts.get? update.userId = some staffAccount
      ∧ (update.userId = actorPk → update.isActive = true
          ∧ (staffAccount.accessLevel = some .full → accessLevel = .full))
      ∧ db' = db.updated user staffAccount update email accessLevel := by
  unfold updateInternalAccount validateInternalAccountUpdate at h
  simp only [bind_eq_ok, orRaise_eq_ok, require_eq_ok, exists_const, pure_eq_ok] at h
  obtain ⟨accessLevel, -, email, -, staffAccount, hstaff, user, huser,
    ⟨-, -, hactive, hdemote⟩, rfl⟩ := h
  refine ⟨user, staffAccount, accessLevel, email, huser, hstaff, fun hself => ?_, rfl⟩
  have hpk : user.pk = actorPk := (Table.get?_eq_some.mp huser).2.trans hself
  refine ⟨by simpa [hpk] using hactive, fun hfull => ?_⟩
  cases hlevel : accessLevel with
  | full => rfl
  | restricted => exact absurd ⟨hpk, hfull, hlevel⟩ hdemote

variable {db : Accounts} {user : User} {staffAccount : StaffAccount}
  {update : InternalAccountUpdate} {email : String} {accessLevel : StaffAccessLevel}

/-- The user rows after an update. -/
theorem users_updated (huser : db.users.get? update.userId = some user) (k : ℕ) :
    (db.updated user staffAccount update email accessLevel).users.get? k
      = if k = update.userId then some (user.fill update email) else db.users.get? k := by
  obtain ⟨hmem, hpk⟩ := Table.get?_eq_some.mp huser
  rw [← hpk]
  exact Table.get?_put (r := user.fill update email) ⟨user, hmem, rfl⟩ k

/-- The staff accounts after an update. -/
theorem staffAccounts_updated (hstaff : db.staffAccounts.get? update.userId = some staffAccount)
    (k : ℕ) :
    (db.updated user staffAccount update email accessLevel).staffAccounts.get? k
      = if k = update.userId then some { staffAccount with accessLevel := some accessLevel }
        else db.staffAccounts.get? k := by
  obtain ⟨hmem, hpk⟩ := Table.get?_eq_some.mp hstaff
  rw [← hpk]
  exact Table.get?_put (r := { staffAccount with accessLevel := some accessLevel })
    ⟨staffAccount, hmem, rfl⟩ k

/-- An update touches the account it names and no other. -/
theorem updated_of_ne (huser : db.users.get? update.userId = some user)
    (hstaff : db.staffAccounts.get? update.userId = some staffAccount) {k : ℕ}
    (hk : k ≠ update.userId) :
    ManagesAccounts (db.updated user staffAccount update email accessLevel) k ↔
      ManagesAccounts db k := by
  unfold ManagesAccounts
  rw [users_updated huser, if_neg hk]
  refine exists_congr (fun x => and_congr_right (fun hx => ?_))
  have hxk : x.pk = k := (Table.get?_eq_some.mp hx).2
  have hstaffs : (db.updated user staffAccount update email accessLevel).staffAccounts.get? x.pk
      = db.staffAccounts.get? x.pk := by
    rw [staffAccounts_updated hstaff, hxk, if_neg hk]
  have hrole : resolveAccountRole (db.updated user staffAccount update email accessLevel) x
      = resolveAccountRole db x := by
    unfold resolveAccountRole
    rw [hstaffs]
    rfl
  rw [hrole]

/-- Who manages accounts still does so after an update that leaves the account active, and
    full if it was full. -/
theorem ManagesAccounts.of_update (huser : db.users.get? update.userId = some user)
    (hstaff : db.staffAccounts.get? update.userId = some staffAccount)
    (h : ManagesAccounts db update.userId) (hactive : update.isActive = true)
    (hfull : staffAccount.accessLevel = some .full → accessLevel = .full) :
    ManagesAccounts (db.updated user staffAccount update email accessLevel) update.userId := by
  obtain ⟨x, hx, -, hrole⟩ := h
  rw [huser, Option.some.injEq] at hx
  subst hx
  have hpk : user.pk = update.userId := (Table.get?_eq_some.mp huser).2
  refine ⟨user.fill update email, ?_, hactive, resolveAccountRole_manages.mpr ?_⟩
  · rw [users_updated huser, if_pos rfl]
  rcases resolveAccountRole_manages.mp hrole with hsuper | ⟨hmember, s, hs, hlevel⟩
  · exact Or.inl hsuper
  · rw [hpk, hstaff, Option.some.injEq] at hs
    subst hs
    refine Or.inr ⟨hmember, { staffAccount with accessLevel := some accessLevel }, ?_,
      congrArg some (hfull hlevel)⟩
    show (db.updated user staffAccount update email accessLevel).staffAccounts.get? user.pk = _
    rw [staffAccounts_updated hstaff, if_pos hpk]

end SwedeSweets
