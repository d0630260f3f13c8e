import SwedeSweets.Accounts.Services
import SwedeSweets.Lib.Interleaving

namespace SwedeSweets

open Relational Fallible Transition Interleaving

/-!
# Who manages accounts, under concurrent updates

Any number of requests update internal accounts.  A request is checked by the middlewares when
it starts and runs `updateInternalAccount`, one transaction, later (`accountRequests`); other
requests may commit in between.

* `administration_survives` — as long as no update of the last account that manages accounts
  runs on behalf of an actor who meanwhile lost that access, some account manages accounts in
  every state of every interleaving;
* `administration_lost` — two full accounts that were let in side by side and deactivate each
  other.
-/

/-- One request of an actor to update an internal account. -/
structure AccountRequest where
  actorPk : ℕ
  update : InternalAccountUpdate

/-- Where a request stands. -/
inductive AccountRequest.Progress where
  | arrived | letIn | finished
  deriving DecidableEq, Repr

variable {ω : Type}

/-- The steps of the requests: the middlewares let the actor in or turn it away, and whoever
    was let in runs the update, which goes through or raises. -/
inductive AccountRequestStep (lower : String → String) (requests : ω → AccountRequest) (w : ω) :
    Accounts → AccountRequest.Progress → Accounts → AccountRequest.Progress → Prop where
  | letIn {db : Accounts} : processView db (requests w).actorPk .manageAccounts = .ok () →
      AccountRequestStep lower requests w db .arrived db .letIn
  | turnedAway {db : Accounts} {e : AccountError} :
      processView db (requests w).actorPk .manageAccounts = .error e →
      AccountRequestStep lower requests w db .arrived db .finished
  | update {db db' : Accounts} :
      updateInternalAccount lower db (requests w).update (requests w).actorPk = .ok db' →
      AccountRequestStep lower requests w db .letIn db' .finished
  | raised {db : Accounts} {e : AccountError} :
      updateInternalAccount lower db (requests w).update (requests w).actorPk = .error e →
      AccountRequestStep lower requests w db .letIn db .finished

/-- The requests as workers; nothing else touches the accounts. -/
def accountRequests (lower : String → String) (requests : ω → AccountRequest) :
    Program Accounts AccountRequest.Progress ω where
  work := AccountRequestStep lower requests
  env _ _ := False

/-- Some active account holds MANAGE_ACCOUNTS. -/
def Administered (db : Accounts) : Prop := ∃ userPk, ManagesAccounts db userPk

/-- The actor of the request still manages accounts, or somebody besides its target does. -/
def AccountRequest.Current (request : AccountRequest) (db : Accounts) : Prop :=
  ManagesAccounts db request.actorPk
    ∨ ∃ userPk, userPk ≠ request.update.userId ∧ ManagesAccounts db userPk

/-- A move is current when it runs no update, or one of a current request. -/
def CurrentMove (requests : ω → AccountRequest) (s : Pool Accounts AccountRequest.Progress ω) :
    Move ω → Prop
  | .work w => s.locals w = .letIn → (requests w).Current s.shared
  | .env => True

/-- **One update.** An update of a current request leaves somebody who manages accounts. -/
theorem Administered.update {lower : String → String} {db db' : Accounts} {r : AccountRequest}
    (hcurrent : r.Current db)
    (h : updateInternalAccount lower db r.update r.actorPk = .ok db') : Administered db' := by
  obtain ⟨user, staffAccount, accessLevel, email, huser, hstaff, hself, rfl⟩ :=
    updateInternalAccount_eq_ok h
  have hother : ∀ userPk, userPk ≠ r.update.userId → ManagesAccounts db userPk →
      Administered (db.updated user staffAccount r.update email accessLevel) :=
    fun userPk hne hmanages => ⟨userPk, (updated_of_ne huser hstaff hne).mpr hmanages⟩
  -- who manages afterwards: the actor, or somebody the update leaves alone
  rcases hcurrent with hactor | ⟨userPk, hne, hmanages⟩
  · by_cases hsame : r.actorPk = r.update.userId
    · -- the actor updates itself, and the checks keep it what it is
      obtain ⟨hactive, hfull⟩ := hself hsame.symm
      exact ⟨r.update.userId,
        (hsame ▸ hactor : ManagesAccounts db r.update.userId).of_update huser hstaff hactive hfull⟩
    · exact hother r.actorPk hsame hactor
  · exact hother userPk hne hmanages

/-- **One step.** -/
theorem Administered.step [DecidableEq ω] {lower : String → String} {requests : ω → AccountRequest}
    {s t : Pool Accounts AccountRequest.Progress ω} {m : Move ω} (hs : Administered s.shared)
    (hcurrent : CurrentMove requests s m) (h : Step (accountRequests lower requests) s m t) :
    Administered t.shared := by
  cases h with
  | env hfalse => exact hfalse.elim
  | @work w db' p' hwork =>
    -- only an update that goes through changes anything
    have hstep : ∀ {db : Accounts} {p : AccountRequest.Progress}, Administered db →
        (p = .letIn → (requests w).Current db) →
        AccountRequestStep lower requests w db p db' p' → Administered db' := by
      intro db p hdb hcur hw
      cases hw with
      | letIn => exact hdb
      | turnedAway => exact hdb
      | update hok => exact Administered.update (hcur rfl) hok
      | raised => exact hdb
    exact hstep hs hcurrent hwork

/-- **Accounts stay administered.** Along every interleaving of any requests in which every
    update runs on behalf of an actor who still manages accounts, or spares somebody who
    does, some active account holds MANAGE_ACCOUNTS. -/
theorem administration_survives [DecidableEq ω] {lower : String → String}
    {requests : ω → AccountRequest} {s t : Pool Accounts AccountRequest.Progress ω}
    {ms : List (Move ω)} (hs : Administered s.shared)
    (hrun : Run (fun s m t => CurrentMove requests s m
      ∧ Step (accountRequests lower requests) s m t) s ms t) : Administered t.shared :=
  hrun.invariant_of (I := fun s => Administered s.shared)
    (fun _ _ _ hI hgood hstep => hI.step hgood hstep) hs

/-! ### Two accounts -/

namespace Office

def account (pk : ℕ) (email : String) : User := ⟨pk, email, email, "", "", true, false⟩

/-- Two accounts of full staff. -/
def accounts : Accounts where
  users := ⟨[account 1 "a", account 2 "b"], 3, by decide, by decide⟩
  staffAccounts := ⟨[⟨1, some .full⟩, ⟨2, some .full⟩], 3, by decide, by decide⟩
  customerMemberships := .empty

/-- Each asks to deactivate the other. -/
def requests : Bool → AccountRequest
  | false => ⟨1, ⟨2, "b", "", "", "full", false⟩⟩
  | true => ⟨2, ⟨1, "a", "", "", "full", false⟩⟩

/-- Nobody was let in yet. -/
def arrived : Pool Accounts AccountRequest.Progress Bool := ⟨accounts, fun _ => .arrived⟩

/-- The first account is full staff and active. -/
theorem first_manages : ManagesAccounts accounts 1 :=
  ⟨account 1 "a", by decide, rfl, .fullStaff, rfl, by decide⟩

/-- The second manager manages accounts. -/
theorem second_manages : ManagesAccounts accounts 2 :=
  ⟨account 2 "b", by decide, rfl, .fullStaff, rfl, by decide⟩

/-- The accounts after the first one has deactivated the second. -/
def halved : Accounts :=
  accounts.updated (account 2 "b") ⟨2, some .full⟩ (requests false).update "b" .full

/-- The first manager can take the second one's access away. -/
theorem updates_second :
    updateInternalAccount id accounts (requests false).update 1 = .ok halved := by
  rfl

/-- The accounts after the second one has deactivated the first as well. -/
def deserted : Accounts :=
  halved.updated (account 1 "a") ⟨1, some .full⟩ (requests true).update "a" .full

/-- The second manager can take the first one's access away. -/
theorem updates_first : updateInternalAccount id halved (requests true).update 2 = .ok deserted := by
  rfl

/-- The first request is let in. -/
theorem lets_first_in {s : Pool Accounts AccountRequest.Progress Bool} (hs : s.shared = accounts)
    (hw : s.locals false = .arrived) : Step (accountRequests id requests) s (.work false)
      ⟨accounts, Function.update s.locals false .letIn⟩ :=
  Step.work_of hs hw (AccountRequestStep.letIn (processView_eq_ok.mpr first_manages))

/-- The second request is let in, while its actor still manages. -/
theorem lets_second_in {s : Pool Accounts AccountRequest.Progress Bool} (hs : s.shared = accounts)
    (hw : s.locals true = .arrived) : Step (accountRequests id requests) s (.work true)
      ⟨accounts, Function.update s.locals true .letIn⟩ :=
  Step.work_of hs hw (AccountRequestStep.letIn (processView_eq_ok.mpr second_manages))

/-- The first request is carried out. -/
theorem runs_first {s : Pool Accounts AccountRequest.Progress Bool} (hs : s.shared = accounts)
    (hw : s.locals false = .letIn) : Step (accountRequests id requests) s (.work false)
      ⟨halved, Function.update s.locals false .finished⟩ :=
  Step.work_of hs hw (AccountRequestStep.update updates_second)

/-- The second request is carried out, though its actor manages no more. -/
theorem runs_second {s : Pool Accounts AccountRequest.Progress Bool} (hs : s.shared = halved)
    (hw : s.locals true = .letIn) : Step (accountRequests id requests) s (.work true)
      ⟨deserted, Function.update s.locals true .finished⟩ :=
  Step.work_of hs hw (AccountRequestStep.update updates_first)

end Office

/-- The first account is let in and deactivates the second; it keeps managing accounts. -/
theorem administration_survives_office :
    ∃ ms t, Run (Step (accountRequests id Office.requests)) Office.arrived ms t
      ∧ t.shared = Office.halved ∧ Administered t.shared := by
  have hlet := Office.lets_first_in (s := Office.arrived) rfl rfl
  have hruns := Office.runs_first
    (s := ⟨Office.accounts, Function.update Office.arrived.locals false .letIn⟩) rfl rfl
  have hidle : CurrentMove Office.requests Office.arrived (.work false) := fun h => by cases h
  have hcurrent : CurrentMove Office.requests
      ⟨Office.accounts, Function.update Office.arrived.locals false .letIn⟩ (.work false) :=
    fun _ => Or.inl Office.first_manages
  have hrun : Run (fun s m t => CurrentMove Office.requests s m
      ∧ Step (accountRequests id Office.requests) s m t) Office.arrived _ _ :=
    (Run.single ⟨hidle, hlet⟩).append (Run.single ⟨hcurrent, hruns⟩)
  exact ⟨_, _, hrun.mono (fun _ _ _ _ h => h.2), rfl,
    administration_survives ⟨1, Office.first_manages⟩ hrun⟩

/-- **Two stale requests.** Both accounts are let in while both manage accounts; then each
    deactivates the other, and nobody manages accounts any more. -/
theorem administration_lost :
    Administered Office.arrived.shared ∧
      ∃ ms t, Run (Step (accountRequests id Office.requests)) Office.arrived ms t
        ∧ ¬ Administered t.shared := by
  refine ⟨⟨1, Office.first_manages⟩, ?_⟩
  have hletIn := (Run.single (Office.lets_first_in (s := Office.arrived) rfl rfl)).append
    (Run.single (Office.lets_second_in rfl rfl))
  refine ⟨_, _, (hletIn.append (Run.single (Office.runs_first rfl rfl))).append
    (Run.single (Office.runs_second rfl rfl)), ?_⟩
  -- every row that is left is inactive
  rintro ⟨k, user, hget, hactive, -⟩
  have hinactive : ∀ u ∈ Office.deserted.users.rows, u.isActive = false := by decide +kernel
  rw [hinactive user (Table.get?_eq_some.mp hget).1] at hactive
  cases hactive

end SwedeSweets
