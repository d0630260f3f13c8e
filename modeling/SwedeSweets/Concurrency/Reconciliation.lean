import SwedeSweets.Guarantees.Settlement
import SwedeSweets.Lib.Interleaving

namespace SwedeSweets

open Relational Fallible Transition Interleaving

/-!
# Concurrent reconciliation

Any number of workers reconcile one attempt against one answer of the provider, each in
separate steps (`Reconciler`): load, ask the provider, re-read, run the atomic complete or
fail step, refresh.  Whether work remains is decided on the unlocked re-read.

* `alone_reconcile`, `alone_recover` — a worker that is not interrupted does what the
  services say;
* `reconciliation_idempotent` — as long as no worker re-reads the attempt as PENDING while
  another one is about to settle it, it is settled once, nobody raises, and a customer who
  returns is told how it was settled;
* `reconciliation_race` — two workers that both re-read it as PENDING: the loser's customer is
  sent to support although the payment succeeded.
-/

/-- The system, and the workers that have completed or failed the attempt. -/
structure Reconciling (ω : Type) where
  system : State
  performed : List ω

/-- Where one call of `reconcile_retail_payment` or, when it is `recovering`, of
    `recover_retail_payment` stands. -/
inductive Reconciler where
  | returning
  | loading (recovering : Bool)
  | loaded (recovering : Bool) (attempt : PaymentAttempt)
  | fetched (recovering : Bool)
  | decided (recovering : Bool) (step : ReconciliationStep)
  | settled (recovering : Bool)
  | caught (e : Error)
  | reconciled (attempt : PaymentAttempt)
  | recovered (recovery : RetailPaymentRecovery)
  | raised (e : Error)

namespace Reconciler

/-- A call that has not begun. -/
def Fresh : Reconciler → Prop
  | .returning => True
  | .loading recovering => recovering = false
  | _ => False

/-- The worker has re-read the attempt as PENDING and is about to settle it. -/
def Deciding : Reconciler → Prop
  | .decided _ _ => True
  | _ => False

/-- What an exception during the reconciliation leads to. -/
def raise (recovering : Bool) (e : Error) : Reconciler :=
  if recovering = true then .caught e else .raised e

/-- What a reconciliation that goes through leads to. -/
def finish (external : ExternalPaymentState) (recovering : Bool) (attempt : PaymentAttempt) :
    Reconciler :=
  if recovering = true then .recovered (reconciledRecovery attempt external)
  else .reconciled attempt

end Reconciler

/-- The atomic step that settles an attempt. -/
def settleAttempt (rt : Runtime) (db : Db) (attemptPk : ℕ) (external : ExternalPaymentState)
    (step : ReconciliationStep) : Result Db :=
  step.run db attemptPk external (completeRetailPayment rt) failRetailPayment

section

variable {ω : Type} (attemptPk : ℕ) (external : ExternalPaymentState) (w : ω)

/-- The steps of one worker. -/
inductive Reconciler.Step :
    Reconciling ω → Reconciler → Reconciling ω → Reconciler → Prop where
  | recover {s : Reconciling ω} {attempt : PaymentAttempt} :
      s.system.db.getAttempt attemptPk = .ok attempt → settledRecovery attempt = none →
      Step s .returning s (.loading true)
  | recoverSettled {s : Reconciling ω} {attempt : PaymentAttempt}
      {recovery : RetailPaymentRecovery} :
      s.system.db.getAttempt attemptPk = .ok attempt →
      settledRecovery attempt = some recovery → Step s .returning s (.recovered recovery)
  | recoverRaises {s : Reconciling ω} {e : Error} :
      s.system.db.getAttempt attemptPk = .error e → Step s .returning s (.raised e)
  | load {s : Reconciling ω} {recovering : Bool} {attempt : PaymentAttempt} :
      loadForReconciliation s.system.db attemptPk = .ok attempt →
      Step s (.loading recovering) s (.loaded recovering attempt)
  | loadRaises {s : Reconciling ω} {recovering : Bool} {e : Error} :
      loadForReconciliation s.system.db attemptPk = .error e →
      Step s (.loading recovering) s (.raise recovering e)
  | fetch {s : Reconciling ω} {recovering : Bool} {attempt : PaymentAttempt} :
      checkExternalPaymentState attempt external = .ok () →
      Step s (.loaded recovering attempt) s (.fetched recovering)
  | fetchRaises {s : Reconciling ω} {recovering : Bool} {attempt : PaymentAttempt} {e : Error} :
      checkExternalPaymentState attempt external = .error e →
      Step s (.loaded recovering attempt) s (.raise recovering e)
  | rereadDone {s : Reconciling ω} {recovering : Bool} {attempt : PaymentAttempt} :
      rereadAttempt s.system.db attemptPk external = .ok (attempt, .done) →
      Step s (.fetched recovering) s (.finish external recovering attempt)
  | reread {s : Reconciling ω} {recovering : Bool} {attempt : PaymentAttempt}
      {step : ReconciliationStep} :
      rereadAttempt s.system.db attemptPk external = .ok (attempt, step) → step ≠ .done →
      Step s (.fetched recovering) s (.decided recovering step)
  | rereadRaises {s : Reconciling ω} {recovering : Bool} {e : Error} :
      rereadAttempt s.system.db attemptPk external = .error e →
      Step s (.fetched recovering) s (.raise recovering e)
  | settle {s : Reconciling ω} {recovering : Bool} {step : ReconciliationStep} {rt : Runtime}
      {db : Db} :
      rt.now = s.system.clock →
      settleAttempt rt s.system.db attemptPk external step = .ok db →
      Step s (.decided recovering step) ⟨⟨s.system.clock, db⟩, s.performed ++ [w]⟩
        (.settled recovering)
  | settleRaises {s : Reconciling ω} {recovering : Bool} {step : ReconciliationStep}
      {rt : Runtime} {e : Error} :
      rt.now = s.system.clock →
      settleAttempt rt s.system.db attemptPk external step = .error e →
      Step s (.decided recovering step) s (.raise recovering e)
  | refresh {s : Reconciling ω} {recovering : Bool} {attempt : PaymentAttempt} :
      s.system.db.getAttempt attemptPk = .ok attempt →
      Step s (.settled recovering) s (.finish external recovering attempt)
  | refreshRaises {s : Reconciling ω} {recovering : Bool} {e : Error} :
      s.system.db.getAttempt attemptPk = .error e →
      Step s (.settled recovering) s (.raise recovering e)
  | support {s : Reconciling ω} {attempt : PaymentAttempt} {e : Error} :
      s.system.db.getAttempt attemptPk = .ok attempt →
      Step s (.caught e) s (.recovered ⟨attempt, .needsSupport, none⟩)
  | supportRaises {s : Reconciling ω} {e e' : Error} :
      s.system.db.getAttempt attemptPk = .error e' → Step s (.caught e) s (.raised e')

end

/-- Any number of workers that reconcile one attempt, while time passes. -/
def reconciliation (ω : Type) (attemptPk : ℕ) (external : ExternalPaymentState) :
    Program (Reconciling ω) Reconciler ω where
  work w := Reconciler.Step attemptPk external w
  env s t := ∃ now, s.system.clock ≤ now ∧ t = { s with system := ⟨now, s.system.db⟩ }

/-! ### One worker alone -/

section

variable {ω : Type} {w : ω} {attemptPk : ℕ} {external : ExternalPaymentState} {rt : Runtime}
  {s : Reconciling ω} {db : Db}

/-- What the atomic step leaves still has the attempt. -/
theorem getAttempt_of_settle {step : ReconciliationStep} {attempt : PaymentAttempt} {db' : Db}
    (hget : db.getAttempt attemptPk = .ok attempt)
    (h : settleAttempt rt db attemptPk external step = .ok db') :
    ∃ attempt', db'.getAttempt attemptPk = .ok attempt' := by
  cases step with
  | done =>
    have hdb : db = db' := pure_eq_ok.mp h
    exact ⟨attempt, hdb ▸ hget⟩
  | onSucceeded =>
    obtain ⟨p, -, hpk, p', hsucc, hp'⟩ := attempt_of_complete h
    have hpk' : p'.pk = attemptPk := by rw [Inv.succeeded_eq_ok hsucc, ← hpk]
    exact ⟨p', Db.getAttempt_eq_ok.mpr ⟨hp', hpk'⟩⟩
  | onFailed =>
    obtain ⟨p, -, hpk, hp'⟩ := attempt_of_fail h
    exact ⟨_, Db.getAttempt_eq_ok.mpr ⟨hp', hpk⟩⟩

/-- A reconciliation that goes through ends with the attempt as it then is. -/
theorem alone_loading (recovering : Bool) (hnow : rt.now = s.system.clock)
    (h : reconcileRetailPayment rt s.system.db attemptPk external = .ok db) :
    ∃ attempt performed, db.getAttempt attemptPk = .ok attempt ∧
      (reconciliation ω attemptPk external).Alone w s (.loading recovering)
        ⟨⟨s.system.clock, db⟩, performed⟩ (.finish external recovering attempt) := by
  unfold reconcileRetailPayment reconcilePaymentAttempt at h
  simp only [bind_eq_ok] at h
  obtain ⟨loaded, hload, _, hcheck, ⟨attempt, step⟩, hreread, hrun⟩ := h
  have hget : s.system.db.getAttempt attemptPk = .ok attempt := by
    unfold rereadAttempt at hreread
    simp only [bind_eq_ok, pure_eq_ok, Prod.mk.injEq] at hreread
    obtain ⟨a, hget, _, _, rfl, _⟩ := hreread
    exact hget
  -- A step of `.done` returns the re-read attempt; any other one commits and reads it back.
  by_cases hdone : step = .done
  · subst hdone
    have hdb : s.system.db = db := pure_eq_ok.mp hrun
    subst hdb
    exact ⟨attempt, s.performed, hget,
      .step (.load hload) (.step (.fetch hcheck) (.step (.rereadDone hreread) (.refl _ _)))⟩
  · obtain ⟨attempt', hget'⟩ := getAttempt_of_settle hget hrun
    exact ⟨attempt', s.performed ++ [w], hget',
      .step (.load hload) (.step (.fetch hcheck) (.step (.reread hreread hdone)
        (.step (.settle hnow hrun) (.step (.refresh hget') (.refl _ _)))))⟩

/-- One that raises has changed nothing. -/
theorem alone_loading_raises (recovering : Bool) (hnow : rt.now = s.system.clock) {e : Error}
    (h : reconcileRetailPayment rt s.system.db attemptPk external = .error e) :
    (reconciliation ω attemptPk external).Alone w s (.loading recovering) s
      (.raise recovering e) := by
  unfold reconcileRetailPayment reconcilePaymentAttempt at h
  -- The four places the call can raise, in the order it reaches them.
  cases hload : loadForReconciliation s.system.db attemptPk with
  | error e' =>
    rw [hload] at h
    cases h
    exact .step (.loadRaises hload) (.refl _ _)
  | ok loaded =>
    rw [hload] at h
    refine .step (.load hload) ?_
    cases hcheck : checkExternalPaymentState loaded external with
    | error e' =>
      simp only [bind, Except.bind, hcheck] at h
      cases h
      exact .step (.fetchRaises hcheck) (.refl _ _)
    | ok u =>
      simp only [bind, Except.bind, hcheck] at h
      refine .step (.fetch hcheck) ?_
      cases hreread : rereadAttempt s.system.db attemptPk external with
      | error e' =>
        rw [hreread] at h
        cases h
        exact .step (.rereadRaises hreread) (.refl _ _)
      | ok r =>
        obtain ⟨attempt, step⟩ := r
        rw [hreread] at h
        have hne : step ≠ .done := by
          rintro rfl
          cases h
        exact .step (.reread hreread hne) (.step (.settleRaises hnow h) (.refl _ _))

/-- **Alone.** A notification that is not interrupted reconciles as the service says. -/
theorem alone_reconcile (hnow : rt.now = s.system.clock)
    (h : reconcileRetailPayment rt s.system.db attemptPk external = .ok db) :
    ∃ attempt performed, db.getAttempt attemptPk = .ok attempt ∧
      (reconciliation ω attemptPk external).Alone w s (.loading false)
        ⟨⟨s.system.clock, db⟩, performed⟩ (.reconciled attempt) :=
  alone_loading false hnow h

/-- **Alone.** A customer's return that is not interrupted recovers as the service says. -/
theorem alone_recover (hnow : rt.now = s.system.clock) {recovery : RetailPaymentRecovery}
    (h : recoverRetailPayment rt s.system.db attemptPk external = .ok (db, recovery)) :
    ∃ performed, (reconciliation ω attemptPk external).Alone w s .returning
      ⟨⟨s.system.clock, db⟩, performed⟩ (.recovered recovery) := by
  unfold recoverRetailPayment at h
  rw [bind_eq_ok] at h
  obtain ⟨attempt, hget, h⟩ := h
  -- Recovery reconciles only an attempt that is not settled yet.
  cases hsettled : settledRecovery attempt with
  | some recovery' =>
    simp only [hsettled, pure_eq_ok, Prod.mk.injEq] at h
    obtain ⟨rfl, rfl⟩ := h
    exact ⟨s.performed, .step (.recoverSettled hget hsettled) (.refl _ _)⟩
  | none =>
    simp only [hsettled] at h
    cases hreconcile : reconcileRetailPayment rt s.system.db attemptPk external with
    | ok db' =>
      simp only [hreconcile, bind_eq_ok, pure_eq_ok, Prod.mk.injEq] at h
      obtain ⟨reconciled, hget', rfl, rfl⟩ := h
      obtain ⟨attempt', performed, hget'', halone⟩ := alone_loading (w := w) true hnow
        hreconcile
      rw [hget', Except.ok.injEq] at hget''
      subst hget''
      exact ⟨performed, .step (.recover hget hsettled) halone⟩
    | error e =>
      simp only [hreconcile, bind_eq_ok, pure_eq_ok, Prod.mk.injEq] at h
      obtain ⟨refreshed, hget', rfl, rfl⟩ := h
      exact ⟨s.performed, .step (.recover hget hsettled)
        ((alone_loading_raises true hnow hreconcile).trans
          (.step (.support hget') (.refl _ _)))⟩

end

/-! ### What holds along the way -/

/-- Some stock of an order is held by a reservation that has not expired. -/
def Db.UnexpiredAt (now : Time) (db : Db) (orderPk : ℕ) : Prop :=
  ∃ a ∈ db.orderAllocations orderPk, a.status = .reserved
    ∧ ∃ deadline, a.reservedUntil = some deadline ∧ now < deadline

/-- What is left to do for a PENDING attempt. -/
def ExternalPaymentState.step (external : ExternalPaymentState) : ReconciliationStep :=
  match external.status with
  | .pending => .done
  | .succeeded => .onSucceeded
  | .failed => .onFailed

/-- The attempt was settled as the provider says. -/
def PaymentAttempt.SettledBy (p : PaymentAttempt) (external : ExternalPaymentState) : Prop :=
  (external.status = .succeeded ∧ p.status = .succeeded
      ∧ ∀ t, external.providerTransactionId = some t → p.providerTransactionId = Text.strip t)
    ∨ (external.status = .failed ∧ p.status = .failed)

section

variable {ω : Type} {attemptPk : ℕ} {external : ExternalPaymentState}

variable (attemptPk external) in
/-- Nobody has settled the attempt yet. -/
def Reconciling.Unsettled (s : Reconciling ω) : Prop :=
  s.performed = [] ∧ Inv s.system.clock s.system.db ∧
    ∃ p ∈ s.system.db.paymentAttempts, p.pk = attemptPk ∧ p.status = .pending
      ∧ p.providerPaymentId = external.providerPaymentId
      ∧ ∃ o ∈ s.system.db.orders, o.pk = p.orderId ∧ o.status = .draft

variable (attemptPk external) in
/-- One worker has settled the attempt. -/
def Reconciling.Settled (s : Reconciling ω) : Prop :=
  s.performed.length = 1 ∧
    ∃ p ∈ s.system.db.paymentAttempts, p.pk = attemptPk
      ∧ p.providerPaymentId = external.providerPaymentId ∧ p.SettledBy external

/-- The customer is told how the attempt was settled. -/
def RetailPaymentRecovery.Truthful (recovery : RetailPaymentRecovery) : Prop :=
  (recovery.attempt.status = .succeeded → recovery.action = .confirmed)
    ∧ (recovery.attempt.status = .failed → recovery.action = .paymentFailed)

variable (attemptPk external) in
/-- What a worker knows. -/
def Reconciler.Knows (s : Reconciling ω) : Reconciler → Prop
  | .loaded _ attempt => attempt.providerPaymentId = external.providerPaymentId
  | .decided _ step => step = external.step
  | .settled _ => s.Settled attemptPk external
  | .reconciled _ => s.Settled attemptPk external
  | .recovered recovery => s.Settled attemptPk external ∧ recovery.Truthful
  | .caught _ | .raised _ => False
  | _ => True

variable (attemptPk external) in
/-- The invariant of the pool: at most one worker is about to settle the attempt, and then
    nobody has done so. -/
structure ReconcilingOk (s : Pool (Reconciling ω) Reconciler ω) : Prop where
  shared : s.shared.Unsettled attemptPk external ∨ s.shared.Settled attemptPk external
  knows : ∀ w, (s.locals w).Knows attemptPk external s.shared
  exclusive : ∀ v w, (s.locals v).Deciding → (s.locals w).Deciding → v = w
  deciding : ∀ w, (s.locals w).Deciding → s.shared.Unsettled attemptPk external

variable (attemptPk external) in
/-- A step of worker `w` that overlaps with no other: it re-reads the attempt as PENDING only
    while nobody else is about to settle it, the transaction id is stored as the provider
    gives it, and the stock is held until the payment is completed. -/
structure Orderly (s : Pool (Reconciling ω) Reconciler ω) (w : ω) : Prop where
  alone : (∃ recovering, s.locals w = .fetched recovering) →
    s.shared.system.db.attemptStatus attemptPk = some .pending →
      ∀ v, ¬ (s.locals v).Deciding
  stripped : (∃ recovering, s.locals w = .fetched recovering) →
    s.shared.system.db.attemptStatus attemptPk = some .succeeded →
      ∀ t, external.providerTransactionId = some t → Text.strip t = t
  valid : (s.locals w).Deciding → external.status = .succeeded →
    Inv.ValidTransactionId external.providerTransactionId
  unexpired : (s.locals w).Deciding → external.status = .succeeded →
    ∀ p ∈ s.shared.system.db.paymentAttempts, p.pk = attemptPk →
      s.shared.system.db.UnexpiredAt s.shared.system.clock p.orderId

/-! ### Single facts -/

/-- An order some of whose stock is held until a deadline is a DRAFT. -/
theorem draft_of_unexpired {now t : Time} {db : Db} (h : Inv now db) {o : Order}
    (ho : o ∈ db.orders) (hheld : db.UnexpiredAt t o.pk) : o.status = .draft := by
  obtain ⟨a, ha, hres, deadline, hdl, -⟩ := hheld
  have hstock := (h.orders o ho).stock
  unfold StockOk at hstock
  -- Only a draft's holds have a deadline: every other status contradicts `hdl`.
  cases hst : o.status with
  | draft => rfl
  | placed =>
    rw [hst] at hstock
    exact absurd ((hstock.durable a ha hres).symm.trans hdl) (by simp)
  | packed =>
    rw [hst] at hstock
    exact absurd hres (hstock.unreserved a ha)
  | delivered =>
    rw [hst] at hstock
    exact absurd hres (hstock.unreserved a ha)
  | cancelled =>
    rw [hst] at hstock
    exact absurd hres (hstock a ha)

/-- The step of a PENDING attempt is the one the provider's answer asks for. -/
theorem reconciliationStep_pending {p : PaymentAttempt} (hpend : p.status = .pending) :
    reconciliationStep p external = .ok external.step := by
  unfold reconciliationStep ExternalPaymentState.step
  cases external.status with
  | pending => rfl
  | succeeded => simp [hpend, require]
  | failed => simp [hpend, require]

/-- An attempt already settled the way the answer says has nothing left to do. -/
theorem reconciliationStep_settled {p : PaymentAttempt} (hp : p.SettledBy external)
    (hstripped : p.status = .succeeded →
      ∀ t, external.providerTransactionId = some t → Text.strip t = t) :
    reconciliationStep p external = .ok .done := by
  unfold reconciliationStep
  rcases hp with ⟨hext, hst, hid⟩ | ⟨hext, hst⟩
  · simp only [hext, hst, if_true, bind_eq_ok, require_eq_ok, pure_eq_ok, and_true, exists_const]
    rintro ⟨htruthy, -, hne⟩
    cases htx : external.providerTransactionId with
    | none => simp [truthy, htx] at htruthy
    | some t => exact hne (by rw [htx, hid t htx, hstripped hst t htx])
  · simp [hext, hst]

/-- Without asking the provider, a settled attempt is reported as it was settled. -/
theorem settledRecovery_truthful {p : PaymentAttempt} {recovery : RetailPaymentRecovery}
    (hp : p.SettledBy external) (h : settledRecovery p = some recovery) : recovery.Truthful := by
  unfold settledRecovery at h
  rcases hp with ⟨-, hst, -⟩ | ⟨-, hst⟩
  · simp only [hst, if_true, Option.some.injEq] at h
    subst h
    exact ⟨fun _ => rfl, fun hf => by simp [hst] at hf⟩
  · simp only [hst, if_true, Option.some.injEq, reduceCtorEq, if_false] at h
    subst h
    exact ⟨fun hs => by simp [hst] at hs, fun _ => rfl⟩

/-- So is one that was settled when it was refreshed. -/
theorem reconciledRecovery_truthful (p : PaymentAttempt) :
    (reconciledRecovery p external).Truthful := by
  unfold reconciledRecovery
  cases hst : p.status with
  | pending =>
    by_cases hurl : truthy external.hostedPaymentUrl = true <;>
      simp [hurl, RetailPaymentRecovery.Truthful, hst]
  | _ => simp [RetailPaymentRecovery.Truthful, hst]

/-- A terminal answer always asks for a step. -/
theorem step_ne_done (hterminal : external.status ≠ .pending) : external.step ≠ .done := by
  unfold ExternalPaymentState.step
  cases hext : external.status with
  | pending => exact absurd hext hterminal
  | succeeded => simp
  | failed => simp

/-- A worker that finished is no longer about to settle the attempt. -/
theorem not_deciding_finish (recovering : Bool) (p : PaymentAttempt) :
    ¬ (Reconciler.finish external recovering p).Deciding := by
  cases recovering <;> exact id

/-- A worker that finishes knows that the attempt is settled. -/
theorem knows_finish {s : Reconciling ω} (h : s.Settled attemptPk external) (recovering : Bool)
    (p : PaymentAttempt) :
    (Reconciler.finish external recovering p).Knows attemptPk external s := by
  cases recovering with
  | false => exact h
  | true => exact ⟨h, reconciledRecovery_truthful p⟩

/-- The attempt, and how it stands. -/
theorem Reconciling.attempt {s : Reconciling ω}
    (h : s.Unsettled attemptPk external ∨ s.Settled attemptPk external) :
    ∃ p, s.system.db.getAttempt attemptPk = .ok p
      ∧ p.providerPaymentId = external.providerPaymentId
      ∧ ((p.status = .pending ∧ s.Unsettled attemptPk external)
        ∨ (p.SettledBy external ∧ s.Settled attemptPk external)) := by
  rcases h with h | h
  · obtain ⟨-, -, p, hp, hpk, hpend, hid, -⟩ := id h
    exact ⟨p, Db.getAttempt_eq_ok.mpr ⟨hp, hpk⟩, hid, Or.inl ⟨hpend, h⟩⟩
  · obtain ⟨-, p, hp, hpk, hid, hsettled⟩ := id h
    exact ⟨p, Db.getAttempt_eq_ok.mpr ⟨hp, hpk⟩, hid, Or.inr ⟨hsettled, h⟩⟩

/-- The status on file is the one of the attempt that is read. -/
theorem attemptStatus_of_get {db : Db} {p : PaymentAttempt} (h : db.getAttempt attemptPk = .ok p) :
    db.attemptStatus attemptPk = some p.status := by
  obtain ⟨hp, rfl⟩ := Db.getAttempt_eq_ok.mp h
  exact attemptStatus_of_mem hp

/-- Reading the attempt again gives the attempt on file and its step. -/
theorem rereadAttempt_eq {db : Db} {p : PaymentAttempt} {step : ReconciliationStep}
    (h : db.getAttempt attemptPk = .ok p) (hstep : reconciliationStep p external = .ok step) :
    rereadAttempt db attemptPk external = .ok (p, step) := by
  unfold rereadAttempt
  simp only [bind_eq_ok, pure_eq_ok]
  exact ⟨p, h, step, hstep, rfl⟩

/-- A bound attempt loads. -/
theorem loadForReconciliation_eq {db : Db} {p : PaymentAttempt}
    (h : db.getAttempt attemptPk = .ok p) (hne : p.providerPaymentId ≠ "") :
    loadForReconciliation db attemptPk = .ok p := by
  unfold loadForReconciliation
  simp only [bind_eq_ok, require_eq_ok, pure_eq_ok, exists_const]
  exact ⟨p, h, hne, rfl⟩

/-! ### Steps -/

variable {s : Pool (Reconciling ω) Reconciler ω} {w : ω}

/-- A worker that moves without writing. -/
theorem ReconcilingOk.moveTo [DecidableEq ω] (h : ReconcilingOk attemptPk external s) {p' : Reconciler}
    (hknows : p'.Knows attemptPk external s.shared)
    (hdeciding : p'.Deciding →
      s.shared.Unsettled attemptPk external ∧ ∀ v, ¬ (s.locals v).Deciding) :
    ReconcilingOk attemptPk external ⟨s.shared, Function.update s.locals w p'⟩ := by
  have hlocal : ∀ v, Function.update s.locals w p' v = if v = w then p' else s.locals v :=
    fun v => Function.update_apply s.locals w p' v
  refine ⟨h.shared, fun v => ?_, fun v v' hv hv' => ?_, fun v hv => ?_⟩
  · simp only [hlocal]
    by_cases hvw : v = w
    · rwa [if_pos hvw]
    · rw [if_neg hvw]
      exact h.knows v
  · simp only [hlocal] at hv hv'
    -- Two deciding workers: at most one of them is `w`, and `w` decides only when nobody else does.
    by_cases hvw : v = w <;> by_cases hvw' : v' = w
    · rw [hvw, hvw']
    · rw [if_pos hvw] at hv
      rw [if_neg hvw'] at hv'
      exact absurd hv' ((hdeciding hv).2 v')
    · rw [if_neg hvw] at hv
      rw [if_pos hvw'] at hv'
      exact absurd hv ((hdeciding hv').2 v)
    · rw [if_neg hvw] at hv
      rw [if_neg hvw'] at hv'
      exact h.exclusive v v' hv hv'
  · simp only [hlocal] at hv
    by_cases hvw : v = w
    · rw [if_pos hvw] at hv
      exact (hdeciding hv).1
    · rw [if_neg hvw] at hv
      exact h.deciding v hv

/-- The worker that settles the attempt. -/
theorem ReconcilingOk.settle [DecidableEq ω] (h : ReconcilingOk attemptPk external s) {recovering : Bool}
    {shared : Reconciling ω} (hw : (s.locals w).Deciding)
    (hsettled : shared.Settled attemptPk external) :
    ReconcilingOk attemptPk external
      ⟨shared, Function.update s.locals w (.settled recovering)⟩ := by
  have hempty := (h.deciding w hw).1
  have hlocal : ∀ v, Function.update s.locals w (Reconciler.settled recovering) v
      = if v = w then .settled recovering else s.locals v :=
    fun v => Function.update_apply s.locals w _ v
  -- nobody else is about to settle it, and nobody has been told so far
  have hothers : ∀ v, v ≠ w → ¬ (s.locals v).Deciding :=
    fun v hvw hv => hvw (h.exclusive v w hv hw)
  have hunsettled : ¬ s.shared.Settled attemptPk external := by
    rintro ⟨hone, -⟩
    rw [hempty] at hone
    cases hone
  have hnone : ∀ v, ¬ (Function.update s.locals w (Reconciler.settled recovering) v).Deciding := by
    intro v hv
    rw [hlocal] at hv
    by_cases hvw : v = w
    · rw [if_pos hvw] at hv
      exact hv
    · rw [if_neg hvw] at hv
      exact hothers v hvw hv
  refine ⟨Or.inr hsettled, fun v => ?_, fun v v' hv => absurd hv (hnone v),
    fun v hv => absurd hv (hnone v)⟩
  simp only [hlocal]
  by_cases hvw : v = w
  · rw [if_pos hvw]
    exact hsettled
  · rw [if_neg hvw]
    have hknows := h.knows v
    have hidle := hothers v hvw
    cases hl : s.locals v with
    | decided recovering' step => exact absurd (by rw [hl]; trivial) hidle
    | loaded recovering' attempt => rw [hl] at hknows; exact hknows
    | settled recovering' => rw [hl] at hknows; exact absurd hknows hunsettled
    | reconciled attempt => rw [hl] at hknows; exact absurd hknows hunsettled
    | recovered recovery => rw [hl] at hknows; exact absurd hknows.1 hunsettled
    | caught e => rw [hl] at hknows; exact hknows.elim
    | raised e => rw [hl] at hknows; exact hknows.elim
    | returning | loading | fetched => trivial

/-- What the atomic step of a worker leads to. -/
theorem settled_of_settle {rt : Runtime} {db : Db}
    (hunsettled : s.shared.Unsettled attemptPk external)
    (h : settleAttempt rt s.shared.system.db attemptPk external external.step = .ok db)
    (hterminal : external.status ≠ .pending) :
    Reconciling.Settled attemptPk external
      ⟨⟨s.shared.system.clock, db⟩, s.shared.performed ++ [w]⟩ := by
  obtain ⟨hempty, -, p, hp, hpk, -, hid, -⟩ := hunsettled
  refine ⟨by rw [hempty]; rfl, ?_⟩
  unfold ExternalPaymentState.step at h
  -- A paid answer completes the attempt, an unpaid one fails it.
  cases hext : external.status with
  | pending => exact absurd hext hterminal
  | succeeded =>
    rw [hext] at h
    obtain ⟨q, hq, hqk, p', hsucc, hp'⟩ := attempt_of_complete h
    have hqp : q = p := Table.eq_of_pk_eq (t := s.shared.system.db.paymentAttempts) hq hp
      (hqk.trans hpk.symm)
    subst hqp
    have heq := Inv.succeeded_eq_ok hsucc
    exact ⟨p', hp', by rw [heq, ← hpk], by rw [heq, ← hid], Or.inl ⟨hext, by rw [heq],
      fun t ht => (Inv.transactionId_of_succeeded (ht ▸ hsucc)).1⟩⟩
  | failed =>
    rw [hext] at h
    obtain ⟨q, hq, hqk, hp'⟩ := attempt_of_fail h
    have hqp : q = p := Table.eq_of_pk_eq (t := s.shared.system.db.paymentAttempts) hq hp
      (hqk.trans hpk.symm)
    subst hqp
    exact ⟨_, hp', hpk, hid, Or.inr ⟨hext, rfl⟩⟩

/-- The atomic step goes through as long as nobody has settled the attempt. -/
theorem exists_settle {rt : Runtime} (hnow : rt.now = s.shared.system.clock)
    (hunsettled : s.shared.Unsettled attemptPk external) (hw : (s.locals w).Deciding)
    (ho : Orderly attemptPk external s w) :
    ∃ db, settleAttempt rt s.shared.system.db attemptPk external external.step = .ok db := by
  obtain ⟨-, hinv, p, hp, rfl, hpend, -, o, horder, hpk, hst⟩ := hunsettled
  unfold ExternalPaymentState.step
  cases hext : external.status with
  | pending => exact ⟨_, rfl⟩
  | failed => exact hinv.exists_fail hp horder hpk hst hpend
  | succeeded =>
    obtain ⟨a, ha, hres, deadline, hdl, hlive⟩ := ho.unexpired hw hext p hp rfl
    obtain ⟨ha, hak⟩ := Db.mem_orderAllocations.mp ha
    refine hinv.exists_complete hp horder hpk hst hpend ⟨a, ha, ?_⟩ (ho.valid hw hext)
    exact Bool.and_eq_true_iff.mpr ⟨reservedOf_iff.mpr ⟨hak.trans hpk.symm, hres⟩, by
      simp [Allocation.isActive, hres, hdl, hnow, hlive]⟩

/-- **Step.** An orderly step of a worker keeps the invariant. -/
theorem ReconcilingOk.work [DecidableEq ω] (h : ReconcilingOk attemptPk external s)
    (hbound : external.providerPaymentId ≠ "") (hterminal : external.status ≠ .pending)
    (ho : Orderly attemptPk external s w) {shared : Reconciling ω} {p' : Reconciler}
    (hst : Reconciler.Step attemptPk external w s.shared (s.locals w) shared p') :
    ReconcilingOk attemptPk external ⟨shared, Function.update s.locals w p'⟩ := by
  obtain ⟨p, hget, hid, hp⟩ := Reconciling.attempt h.shared
  have hknows := h.knows w
  have hstatus := attemptStatus_of_get hget
  generalize hl : s.locals w = l at hst hknows
  -- One case for each step of a worker; `hp` says whether the attempt is still PENDING.
  cases hst with
  | recover hget' hsettled => exact h.moveTo trivial (fun hd => hd.elim)
  | recoverSettled hget' hsettled =>
    rw [hget, Except.ok.injEq] at hget'
    subst hget'
    rcases hp with ⟨hpend, -⟩ | ⟨hp, hdone⟩
    · simp [settledRecovery, hpend, hid, hbound] at hsettled
    · exact h.moveTo ⟨hdone, settledRecovery_truthful hp hsettled⟩ (fun hd => hd.elim)
  | recoverRaises herr =>
    rw [hget] at herr
    cases herr
  | load hload =>
    rw [loadForReconciliation_eq hget (hid ▸ hbound), Except.ok.injEq] at hload
    subst hload
    exact h.moveTo hid (fun hd => hd.elim)
  | loadRaises herr =>
    rw [loadForReconciliation_eq hget (hid ▸ hbound)] at herr
    cases herr
  | fetch hcheck => exact h.moveTo trivial (fun hd => hd.elim)
  | fetchRaises herr =>
    rw [checkExternalPaymentState, require_of hknows.symm] at herr
    cases herr
  | rereadDone hreread =>
    rcases hp with ⟨hpend, -⟩ | ⟨hp, hdone⟩
    · rw [rereadAttempt_eq hget (reconciliationStep_pending hpend), Except.ok.injEq,
        Prod.mk.injEq] at hreread
      exact absurd hreread.2 (step_ne_done hterminal)
    · exact h.moveTo (knows_finish hdone _ _) (fun hd => (not_deciding_finish _ _ hd).elim)
  | reread hreread hne =>
    rcases hp with ⟨hpend, hunsettled⟩ | ⟨hp, hdone⟩
    · rw [rereadAttempt_eq hget (reconciliationStep_pending hpend), Except.ok.injEq,
        Prod.mk.injEq] at hreread
      exact h.moveTo hreread.2.symm
        (fun _ => ⟨hunsettled, ho.alone ⟨_, hl⟩ (by rw [hstatus, hpend])⟩)
    · have hstripped := fun hs : p.status = .succeeded => ho.stripped ⟨_, hl⟩ (by rw [hstatus, hs])
      rw [rereadAttempt_eq hget (reconciliationStep_settled hp hstripped), Except.ok.injEq,
        Prod.mk.injEq] at hreread
      exact absurd hreread.2.symm hne
  | rereadRaises herr =>
    rcases hp with ⟨hpend, -⟩ | ⟨hp, -⟩
    · rw [rereadAttempt_eq hget (reconciliationStep_pending hpend)] at herr
      cases herr
    · have hstripped := fun hs : p.status = .succeeded => ho.stripped ⟨_, hl⟩ (by rw [hstatus, hs])
      rw [rereadAttempt_eq hget (reconciliationStep_settled hp hstripped)] at herr
      cases herr
  | settle hnow hsettle =>
    have hw : (s.locals w).Deciding := by rw [hl]; trivial
    rw [show _ = external.step from hknows] at hsettle
    exact h.settle hw (settled_of_settle (h.deciding w hw) hsettle hterminal)
  | settleRaises hnow herr =>
    have hw : (s.locals w).Deciding := by rw [hl]; trivial
    obtain ⟨db, hok⟩ := exists_settle hnow (h.deciding w hw) hw ho
    rw [show _ = external.step from hknows, hok] at herr
    cases herr
  | refresh hget' =>
    exact h.moveTo (knows_finish hknows _ _) (fun hd => (not_deciding_finish _ _ hd).elim)
  | refreshRaises herr =>
    rw [hget] at herr
    cases herr
  | support hget' => exact hknows.elim
  | supportRaises herr => exact hknows.elim

/-- **Step.** So does the passing of time. -/
theorem ReconcilingOk.tick (h : ReconcilingOk attemptPk external s) {now : Time}
    (hle : s.shared.system.clock ≤ now) :
    ReconcilingOk attemptPk external
      ⟨{ s.shared with system := ⟨now, s.shared.system.db⟩ }, s.locals⟩ := by
  have hunsettled : s.shared.Unsettled attemptPk external → Reconciling.Unsettled attemptPk external
      { s.shared with system := ⟨now, s.shared.system.db⟩ } :=
    fun ⟨hempty, hinv, hp⟩ => ⟨hempty, hinv.later hle, hp⟩
  refine ⟨h.shared.imp hunsettled id, fun v => ?_, h.exclusive, fun v hv =>
    hunsettled (h.deciding v hv)⟩
  have hknows := h.knows v
  cases hl : s.locals v <;> simp only [hl] at hknows ⊢ <;> exact hknows

variable (attemptPk external) in
/-- Every step of a worker is orderly. -/
def OrderlyMove (s : Pool (Reconciling ω) Reconciler ω) : Move ω → Prop
  | .work w => Orderly attemptPk external s w
  | .env => True

/-- A worker that has come to its end. -/
def Reconciler.Finished : Reconciler → Prop
  | .reconciled _ | .recovered _ => True
  | _ => False

/-- The attempt is settled at most once, and exactly once when somebody has finished; nobody
    raises; and a customer who returns is told how the attempt stands. -/
structure ReconciledOnce (s : Pool (Reconciling ω) Reconciler ω) : Prop where
  atMostOnce : s.shared.performed.length ≤ 1
  once : ∀ w, (s.locals w).Finished → s.shared.performed.length = 1
  quiet : ∀ w e, s.locals w ≠ .raised e
  truthful : ∀ w recovery, s.locals w = .recovered recovery → recovery.Truthful

/-- What the invariant promises: at most one settlement, and every worker that ended saw it. -/
theorem ReconcilingOk.once (h : ReconcilingOk attemptPk external s) : ReconciledOnce s := by
  refine ⟨?_, fun w hw => ?_, fun w e hw => ?_, fun w recovery hw => ?_⟩
  · rcases h.shared with hs | hs
    · rw [hs.1]
      exact Nat.zero_le 1
    · exact le_of_eq hs.1
  · have hknows := h.knows w
    cases hl : s.locals w with
    | reconciled attempt => rw [hl] at hknows; exact hknows.1
    | recovered recovery => rw [hl] at hknows; exact hknows.1.1
    | returning | loading | loaded | fetched | decided | settled | caught | raised =>
      rw [hl] at hw
      exact hw.elim
  · have hknows := h.knows w
    rw [hw] at hknows
    exact hknows
  · have hknows := h.knows w
    rw [hw] at hknows
    exact hknows.2

/-- The start of a reconciliation: a PENDING attempt whose stock is held, and a final answer of
    the provider for the payment it is bound to. -/
structure Payable (attemptPk : ℕ) (external : ExternalPaymentState) (s : State) : Prop where
  reachable : Reachable s
  bound : external.providerPaymentId ≠ ""
  terminal : external.status ≠ .pending
  attempt : ∃ p ∈ s.db.paymentAttempts, p.pk = attemptPk ∧ p.status = .pending
    ∧ p.providerPaymentId = external.providerPaymentId ∧ s.db.UnexpiredAt s.clock p.orderId

/-- A payable attempt is unsettled as long as nothing was performed. -/
theorem Payable.unsettled {s : Reconciling ω} (h : Payable attemptPk external s.system)
    (hnone : s.performed = []) : s.Unsettled attemptPk external := by
  obtain ⟨p, hp, hpk, hpend, hid, hheld⟩ := h.attempt
  have hinv := inv_of_reachable h.reachable
  obtain ⟨o, ho, hok⟩ := hinv.references.attempt p hp
  exact ⟨hnone, hinv, p, hp, hpk, hpend, hid, o, ho, hok,
    draft_of_unexpired hinv ho (hok ▸ hheld)⟩

end

/-! ### A payment to reconcile -/

namespace Shop

/-- The payment of the morning is bound to a session of the provider. -/
def paying : List (Runtime × Op) :=
  morning ++ [(runtime 4, .retryRetailHostedPayment 1 ⟨"tr_1", "checkout"⟩)]

/-- The provider reports it paid. -/
def paid : ExternalPaymentState := ⟨"tr_1", .succeeded, none, none⟩

/-- The example's attempt is payable. -/
theorem payable : Payable 1 paid (State.init.after paying) := by
  refine ⟨reachable_after paying (by decide), by decide, by decide, ?_⟩
  have hex : ∃ p ∈ (State.init.after paying).db.paymentAttempts.rows, p.pk = 1
      ∧ p.status = .pending ∧ p.providerPaymentId = paid.providerPaymentId
      ∧ ∃ a ∈ (State.init.after paying).db.orderAllocations p.orderId, a.status = .reserved
        ∧ a.reservedUntil = some (3 + retailPaymentReservationWindow) := by
    decide +kernel
  obtain ⟨p, hp, hpk, hpend, hid, a, ha, hres, hdl⟩ := hex
  exact ⟨p, hp, hpk, hpend, hid, a, ha, hres, _, hdl, by decide +kernel⟩

end Shop

/-- The steps of a worker that finds the attempt PENDING, up to its decision. -/
theorem alone_decides {ω : Type} {w : ω} {attemptPk : ℕ} {external : ExternalPaymentState}
    {s : Reconciling ω} (h : s.Unsettled attemptPk external)
    (hbound : external.providerPaymentId ≠ "") (hterminal : external.status ≠ .pending)
    (recovering : Bool) :
    (reconciliation ω attemptPk external).Alone w s (.loading recovering) s
      (.decided recovering external.step) := by
  obtain ⟨-, -, p, hp, hpk, hpend, hid, -⟩ := h
  have hget := Db.getAttempt_eq_ok.mpr ⟨hp, hpk⟩
  exact .step (.load (loadForReconciliation_eq hget (hid ▸ hbound)))
    (.step (.fetch (require_of hid.symm))
      (.step (.reread (rereadAttempt_eq hget (reconciliationStep_pending hpend))
        (step_ne_done hterminal)) (.refl _ _)))

/-- With a single worker and no transaction id, only the stock has to be held. -/
theorem orderly_single {attemptPk : ℕ} {external : ExternalPaymentState}
    {s : Pool (Reconciling Unit) Reconciler Unit} (hnone : external.providerTransactionId = none)
    (hheld : (s.locals ()).Deciding → ∀ p ∈ s.shared.system.db.paymentAttempts, p.pk = attemptPk →
      s.shared.system.db.UnexpiredAt s.shared.system.clock p.orderId) :
    Orderly attemptPk external s () where
  alone := by
    rintro ⟨recovering, hl⟩ - v hd
    rw [show s.locals v = .fetched recovering from hl] at hd
    exact hd
  stripped _ _ t ht := by
    rw [hnone] at ht
    cases ht
  valid _ _ t ht := by
    rw [hnone] at ht
    cases ht
  unexpired hd _ := hheld hd

/-! ### Runs -/

section

variable {ω : Type} {attemptPk : ℕ} {external : ExternalPaymentState}
  {s : Pool (Reconciling ω) Reconciler ω}

/-- **Reconciliation.** In every interleaving of any number of workers and the passing of time
    whose steps are orderly, the attempt is settled once, nobody raises, and a customer who
    returns is told how it was settled. -/
theorem reconciliation_idempotent [DecidableEq ω] {t : Pool (Reconciling ω) Reconciler ω}
    {ms : List (Move ω)} (hstart : Payable attemptPk external s.shared.system)
    (hnone : s.shared.performed = []) (hfresh : ∀ w, (s.locals w).Fresh)
    (h : Run (fun s m t => OrderlyMove attemptPk external s m
      ∧ Step (reconciliation ω attemptPk external) s m t) s ms t) : ReconciledOnce t := by
  have hok : ReconcilingOk attemptPk external t := h.invariant ?_ ?_
  · exact hok.once
  · rintro u m v hu ⟨ho, hst⟩
    -- The invariant is kept by a worker's move and by the clock.
    cases hst with
    | work hw => exact hu.work hstart.bound hstart.terminal ho hw
    | env he =>
      obtain ⟨now, hle, rfl⟩ := he
      exact hu.tick hle
  -- At the start nobody has read anything.
  · have hidle : ∀ w, ¬ (s.locals w).Deciding := by
      intro w hd
      have hf := hfresh w
      cases hl : s.locals w <;> simp_all [Reconciler.Fresh, Reconciler.Deciding]
    refine ⟨Or.inl (hstart.unsettled hnone), fun w => ?_, fun v w hv => absurd hv (hidle v),
      fun w hw => absurd hw (hidle w)⟩
    have hf := hfresh w
    cases hl : s.locals w <;> simp_all [Reconciler.Fresh, Reconciler.Knows]

end

/-- A customer who returns alone is told that the payment is confirmed. -/
theorem reconciliation_idempotent_paid :
    ∃ t ms recovery, Run (fun s m t => OrderlyMove 1 Shop.paid s m
        ∧ Step (reconciliation Unit 1 Shop.paid) s m t)
        ⟨⟨State.init.after Shop.paying, []⟩, fun _ => .returning⟩ ms t ∧
      t.locals () = .recovered recovery ∧ recovery.action = .confirmed ∧
      t.shared.performed = [()] := by
  let start : Reconciling Unit := ⟨State.init.after Shop.paying, []⟩
  obtain ⟨p, hp, hpk, hpend, hid, hheld⟩ := Shop.payable.attempt
  have hget : start.system.db.getAttempt 1 = .ok p := Db.getAttempt_eq_ok.mpr ⟨hp, hpk⟩
  have hrecovery : settledRecovery p = none := by simp [settledRecovery, hpend, hid, Shop.paid]
  obtain ⟨db, hsettle⟩ := exists_of_isOk (x := completeRetailPayment (Shop.runtime 4)
    (State.init.after Shop.paying).db 1 none) (by decide +kernel)
  obtain ⟨q, -, hqk, p', hsucc, hp'⟩ := attempt_of_complete hsettle
  have hp'k : p'.pk = 1 := by rw [Inv.succeeded_eq_ok hsucc, ← hqk]
  have hp's : p'.status = .succeeded := by rw [Inv.succeeded_eq_ok hsucc]
  have hunexpired : ∀ x ∈ start.system.db.paymentAttempts, x.pk = 1 →
      start.system.db.UnexpiredAt start.system.clock x.orderId := by
    intro x hx hxk
    have hxp : x = p := Table.eq_of_pk_eq (t := start.system.db.paymentAttempts) hx hp
      (hxk.trans hpk.symm)
    rwa [hxp]
  -- one step of the customer's return, from the state `start` on
  have hmove : ∀ {l l' : Reconciler} {shared : Reconciling Unit},
      Reconciler.Step 1 Shop.paid () start l shared l' →
        OrderlyMove 1 Shop.paid ⟨start, fun _ => l⟩ (.work ())
          ∧ Step (reconciliation Unit 1 Shop.paid) ⟨start, fun _ => l⟩ (.work ())
            ⟨shared, Function.update (fun _ => l) () l'⟩ :=
    fun hst => ⟨orderly_single rfl (fun _ => hunexpired), Step.work hst⟩
  have hupdate : ∀ l l' : Reconciler, Function.update (fun _ : Unit => l) () l' = fun _ => l' :=
    fun l l' => funext (fun _ => rfl)
  simp only [hupdate] at hmove
  have hstart : Run (fun s m t => OrderlyMove 1 Shop.paid s m
      ∧ Step (reconciliation Unit 1 Shop.paid) s m t) ⟨start, fun _ => .returning⟩ [] _ := Run.nil _
  have hrun := ((((hstart.snoc
    (hmove (.recover hget hrecovery))).snoc
    (hmove (.load (loadForReconciliation_eq hget (by rw [hid]; decide))))).snoc
    (hmove (.fetch (require_of hid.symm)))).snoc
    (hmove (.reread (rereadAttempt_eq hget (reconciliationStep_pending hpend)) (by decide)))).snoc
    (hmove (.settle (by decide +kernel) hsettle))
  let settled : Pool (Reconciling Unit) Reconciler Unit :=
    ⟨⟨⟨start.system.clock, db⟩, [()]⟩, fun _ => .settled true⟩
  have horderly : Orderly 1 Shop.paid settled () := orderly_single rfl (fun hd => absurd hd id)
  have hrefresh : (reconciliation Unit 1 Shop.paid).work () settled.shared (settled.locals ())
      settled.shared (.recovered (reconciledRecovery p' Shop.paid)) :=
    .refresh (Db.getAttempt_eq_ok.mpr ⟨hp', hp'k⟩)
  have hlast := hrun.snoc (show OrderlyMove 1 Shop.paid settled (.work ())
    ∧ Step (reconciliation Unit 1 Shop.paid) settled (.work ()) _ from
      ⟨horderly, Step.work hrefresh⟩)
  refine ⟨_, _, reconciledRecovery p' Shop.paid, hlast, rfl, ?_, rfl⟩
  have honce := reconciliation_idempotent (s := ⟨start, fun _ => .returning⟩) Shop.payable rfl
    (fun _ => trivial) hlast
  refine (honce.truthful () _ rfl).1 ?_
  simp [reconciledRecovery, hp's]

/-- **A race.** A notification settles the attempt between the re-read and the atomic step of a
    customer's return: the payment succeeded, and the customer is sent to support. -/
theorem reconciliation_race :
    ∃ (s t : Pool (Reconciling Bool) Reconciler Bool) (ms : List (Move Bool)),
      Payable 1 Shop.paid s.shared.system ∧ s.shared.performed = [] ∧ (∀ w, (s.locals w).Fresh) ∧
      Run (Step (reconciliation Bool 1 Shop.paid)) s ms t ∧ ¬ ReconciledOnce t := by
  let start : Reconciling Bool := ⟨State.init.after Shop.paying, []⟩
  let callers : Bool → Reconciler := fun w => if w = true then .returning else .loading false
  have hpayable := Shop.payable
  have hunsettled : start.Unsettled 1 Shop.paid := hpayable.unsettled rfl
  obtain ⟨-, -, p, hp, hpk, hpend, hid, -⟩ := id hunsettled
  -- the customer's return decides
  have hreturn : (reconciliation Bool 1 Shop.paid).Alone true start .returning start
      (.decided true .onSucceeded) := by
    refine .step (.recover (Db.getAttempt_eq_ok.mpr ⟨hp, hpk⟩) ?_)
      (alone_decides hunsettled (by decide) (by decide) true)
    simp [settledRecovery, hpend, hid, Shop.paid]
  -- the notification decides and settles
  obtain ⟨db, hsettle⟩ := exists_of_isOk (x := completeRetailPayment (Shop.runtime 4)
    (State.init.after Shop.paying).db 1 none) (by decide +kernel)
  have hnotify : (reconciliation Bool 1 Shop.paid).Alone false start (.loading false)
      ⟨⟨4, db⟩, [false]⟩ (.settled false) :=
    (alone_decides hunsettled (by decide) (by decide) false).trans
      (.step (.settle (by decide +kernel) hsettle) (.refl _ _))
  -- so the return cannot settle any more
  obtain ⟨q, hq, hqk, p', hsucc, hp'⟩ := attempt_of_complete hsettle
  have hp'k : p'.pk = 1 := by rw [Inv.succeeded_eq_ok hsucc, ← hqk]
  have hp's : p'.status = .succeeded := by rw [Inv.succeeded_eq_ok hsucc]
  obtain ⟨e, hraise⟩ := exists_error (x := completeRetailPayment (Shop.runtime 4) db 1 none) (by
    intro db' hok
    obtain ⟨x, hx, hxk, hxpend, -⟩ := Inv.completeRetailPayment_eq_ok.mp hok
    have hxp : x = p' := Table.eq_of_pk_eq (t := db.paymentAttempts) hx hp' (hxk.trans hp'k.symm)
    rw [hxp, hp's] at hxpend
    cases hxpend)
  have hsupport : (reconciliation Bool 1 Shop.paid).Alone true ⟨⟨4, db⟩, [false]⟩
      (.decided true .onSucceeded) ⟨⟨4, db⟩, [false]⟩ (.recovered ⟨p', .needsSupport, none⟩) :=
    .step (.settleRaises (by rfl) hraise)
      (.step (.support (Db.getAttempt_eq_ok.mpr ⟨hp', hp'k⟩)) (.refl _ _))
  obtain ⟨ms₁, hrun₁⟩ := hreturn.run callers rfl
  obtain ⟨ms₂, hrun₂⟩ := hnotify.run
    (Function.update callers true (.decided true .onSucceeded)) rfl
  obtain ⟨ms₃, hrun₃⟩ := hsupport.run (Function.update
    (Function.update callers true (.decided true .onSucceeded)) false (.settled false)) rfl
  refine ⟨⟨start, callers⟩, _, _, hpayable, rfl, ?_, (hrun₁.append hrun₂).append hrun₃, ?_⟩
  · intro w
    cases w
    · rfl
    · trivial
  · intro honce
    have htrue := (honce.truthful true _ rfl).1 hp's
    cases htrue

end SwedeSweets
