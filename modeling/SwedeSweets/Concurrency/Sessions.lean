import SwedeSweets.Guarantees.Payments
import SwedeSweets.Lib.Interleaving

namespace SwedeSweets

open Relational Fallible Transition Interleaving

/-!
# Concurrent hosted sessions

Any number of callers create hosted sessions at once (`SessionCall`), each in separate
steps: the unlocked check, the provider call, the locked re-check and bind, the refresh.
Between any two steps every other operation of the system may run.

* `alone_retry`, `alone_begin` — a caller that is not interrupted does what the services say;
* `BindingStep` — what a step may do to provider ids: bind a PENDING attempt that has none,
  to an id no other attempt has;
* `sessions_bind_once` — along every interleaving, ids are bound once and apart, and every
  redirect handed back is one of the session its attempt is bound to.
-/

/-- The system, and the sessions the provider has created, each with the attempt it was
    asked for. -/
structure Hosted where
  system : State
  issued : List (ℕ × HostedPaymentSession)

/-- The state after a transaction at some clock. -/
def Hosted.commit (s : Hosted) (now : Time) (db : Db) : Hosted := { s with system := ⟨now, db⟩ }

/-- Where one call of `begin_retail_hosted_payment` or `retry_retail_hosted_payment` stands. -/
inductive SessionCall where
  | begin (checkoutPk : ℕ)
  | retry (attemptPk : ℕ)
  | asking (attemptPk : ℕ)
  | answered (attemptPk : ℕ) (session : HostedPaymentSession)
  | bound (attemptPk : ℕ) (session : HostedPaymentSession)
  | returned (redirect : RetailPaymentRedirect)
  | raised (e : Error)

/-- The steps of one call. -/
inductive SessionCall.Step : Hosted → SessionCall → Hosted → SessionCall → Prop where
  | start {s : Hosted} {checkoutPk : ℕ} {rt : Runtime} {db : Db} {attempt : PaymentAttempt} :
      s.system.clock ≤ rt.now → startRetailPayment rt s.system.db checkoutPk = .ok (db, attempt) →
      Step s (.begin checkoutPk) (s.commit rt.now db) (.retry attempt.pk)
  | startRaises {s : Hosted} {checkoutPk : ℕ} {rt : Runtime} {e : Error} :
      s.system.clock ≤ rt.now → startRetailPayment rt s.system.db checkoutPk = .error e →
      Step s (.begin checkoutPk) (s.commit rt.now s.system.db) (.raised e)
  | check {s : Hosted} {attemptPk : ℕ} {attempt : PaymentAttempt} :
      checkHostedPaymentSession s.system.db attemptPk = .ok attempt →
      Step s (.retry attemptPk) s (.asking attempt.pk)
  | checkRaises {s : Hosted} {attemptPk : ℕ} {e : Error} :
      checkHostedPaymentSession s.system.db attemptPk = .error e →
      Step s (.retry attemptPk) s (.raised e)
  | provider {s : Hosted} {attemptPk : ℕ} {session : HostedPaymentSession} :
      session.providerPaymentId ≠ "" →
      Step s (.asking attemptPk) { s with issued := s.issued ++ [(attemptPk, session)] }
        (.answered attemptPk session)
  | providerRaises {s : Hosted} {attemptPk : ℕ} {e : Error} :
      Step s (.asking attemptPk) s (.raised e)
  | bind {s : Hosted} {attemptPk : ℕ} {session : HostedPaymentSession} {db : Db} :
      bindHostedPaymentSession s.system.db attemptPk session = .ok db →
      Step s (.answered attemptPk session) (s.commit s.system.clock db) (.bound attemptPk session)
  | bindRaises {s : Hosted} {attemptPk : ℕ} {session : HostedPaymentSession} {e : Error} :
      bindHostedPaymentSession s.system.db attemptPk session = .error e →
      Step s (.answered attemptPk session) s (.raised e)
  | refresh {s : Hosted} {attemptPk : ℕ} {session : HostedPaymentSession}
      {attempt : PaymentAttempt} :
      s.system.db.getAttempt attemptPk = .ok attempt →
      Step s (.bound attemptPk session) s (.returned ⟨attempt, session.redirectUrl⟩)

/-- Callers of any number, among every other operation of the system. -/
def hostedSessions (ω : Type) : Program Hosted SessionCall ω where
  work _ := SessionCall.Step
  env s t := ∃ rt : Runtime, ∃ op : Op, s.system.clock ≤ rt.now
    ∧ t = s.commit rt.now (op.exec rt s.system.db)

/-- A call that has not begun. -/
def SessionCall.Fresh : SessionCall → Prop
  | .begin _ | .retry _ => True
  | _ => False

/-! ### One caller alone -/

/-- The checked attempt is the one asked for. -/
theorem pk_of_check {db : Db} {attemptPk : ℕ} {attempt : PaymentAttempt}
    (h : checkHostedPaymentSession db attemptPk = .ok attempt) : attempt.pk = attemptPk := by
  unfold checkHostedPaymentSession at h
  simp only [bind_eq_ok, Db.getAttempt_eq_ok, require_eq_ok, exists_const, pure_eq_ok] at h
  obtain ⟨p, ⟨-, hpk⟩, -, -, rfl⟩ := h
  exact hpk

/-- **Alone.** A retry that is not interrupted does what the service says. -/
theorem alone_retry {ω : Type} {w : ω} {s : Hosted} {attemptPk : ℕ}
    {session : HostedPaymentSession} {db : Db} {redirect : RetailPaymentRedirect}
    (hid : session.providerPaymentId ≠ "")
    (h : retryRetailHostedPayment s.system.db attemptPk session = .ok (db, redirect)) :
    (hostedSessions ω).Alone w s (.retry attemptPk)
      ⟨⟨s.system.clock, db⟩, s.issued ++ [(attemptPk, session)]⟩ (.returned redirect) := by
  unfold retryRetailHostedPayment createRetailHostedPaymentSession createHostedPaymentSession at h
  simp only [bind_eq_ok, pure_eq_ok] at h
  obtain ⟨r, ⟨attempt, hcheck, bound, hbind, rfl⟩, refreshed, hget, heq⟩ := h
  obtain ⟨rfl, rfl⟩ := Prod.mk.inj heq
  have hask := SessionCall.Step.check hcheck
  rw [pk_of_check hcheck] at hask
  exact .step hask (.step (.provider hid) (.step (.bind hbind) (.step (.refresh hget) (.refl _ _))))

/-- **Alone.** So does a begin. -/
theorem alone_begin {ω : Type} {w : ω} {s : Hosted} {checkoutPk : ℕ} {rt : Runtime}
    {session : HostedPaymentSession} {db : Db} {redirect : RetailPaymentRedirect}
    (hid : session.providerPaymentId ≠ "")
    (hclock : s.system.clock ≤ rt.now)
    (h : beginRetailHostedPayment rt s.system.db checkoutPk session = (db, .ok redirect)) :
    ∃ attemptPk, (hostedSessions ω).Alone w s (.begin checkoutPk)
      ⟨⟨rt.now, db⟩, s.issued ++ [(attemptPk, session)]⟩ (.returned redirect) := by
  unfold beginRetailHostedPayment at h
  -- The service starts the attempt, then creates its session; either may raise.
  split at h
  · cases (Prod.mk.inj h).2
  · rename_i started attempt hstart
    split at h
    · cases (Prod.mk.inj h).2
    · rename_i bound redirect' hcreate
      obtain ⟨rfl, hr⟩ := Prod.mk.inj h
      cases hr
      exact ⟨attempt.pk, .step (.start hclock hstart)
        (alone_retry (s := s.commit rt.now started) hid hcreate)⟩

/-! ### Provider ids -/

/-- Two different attempts never hold the same provider id. -/
def UniqueProviderIds (db : Db) : Prop :=
  ∀ p ∈ db.paymentAttempts, ∀ q ∈ db.paymentAttempts, p.providerPaymentId ≠ "" →
    p.providerPaymentId = q.providerPaymentId → p = q

/-- The id of the attempt stays. -/
def SameId (p p' : PaymentAttempt) : Prop := p'.providerPaymentId = p.providerPaymentId

theorem SameId.refl (p : PaymentAttempt) : SameId p p := rfl

/-- The id of the attempt stays, or it is PENDING without one. -/
def MayBind (p p' : PaymentAttempt) : Prop :=
  SameId p p' ∨ (p.providerPaymentId = "" ∧ p.status = .pending)

/-- An unchanged attempt is within what a step may do. -/
theorem MayBind.refl (p : PaymentAttempt) : MayBind p p := Or.inl rfl

/-- What a step may do to provider ids. -/
structure BindingStep (db db' : Db) : Prop where
  binds : Table.Evolves MayBind db.paymentAttempts db'.paymentAttempts
  unique : UniqueProviderIds db → UniqueProviderIds db'

namespace BindingStep

variable {rt : Runtime} {db db' : Db}

/-- A step that leaves the attempts alone. -/
theorem ofEq (h : db'.paymentAttempts = db.paymentAttempts) : BindingStep db db' := by
  refine ⟨by rw [h]; exact Table.Evolves.refl MayBind.refl _, fun hu => ?_⟩
  unfold UniqueProviderIds
  rwa [h]

/-- Starting a payment only adds an unbound attempt. -/
theorem start {checkoutPk : ℕ} {attempt : PaymentAttempt}
    (hok : startRetailPayment rt db checkoutPk = .ok (db', attempt)) : BindingStep db db' := by
  obtain ⟨o, amount, hpos, hinsert, -⟩ := attempts_of_start hok
  refine ⟨by rw [hinsert]; exact Table.evolves_insert MayBind.refl _ _, ?_⟩
  intro hu p hp q hq hne heq
  rw [hinsert, Table.mem_insert] at hp hq
  -- the new attempt has no id
  rcases hp with hp | rfl
  · rcases hq with hq | rfl
    · exact hu p hp q hq hne heq
    · exact absurd heq hne
  · exact absurd rfl hne

/-- Saving an attempt under an id that is its own, or none, or no other's. -/
theorem save {p : PaymentAttempt} (p' : PaymentAttempt) (hp : p ∈ db.paymentAttempts) (hpk : p'.pk = p.pk)
    (hbind : MayBind p p')
    (hfresh : p'.providerPaymentId = p.providerPaymentId ∨ p'.providerPaymentId = ""
      ∨ ∀ q ∈ db.paymentAttempts, q.pk ≠ p.pk → q.providerPaymentId ≠ p'.providerPaymentId)
    (h : db'.paymentAttempts = db.paymentAttempts.put p') : BindingStep db db' := by
  refine ⟨by rw [h]; exact Table.evolves_put MayBind.refl hp hpk hbind, ?_⟩
  intro hu x hx y hy hne heq
  rw [h] at hx hy
  -- A second row with the new id can only be one without an id.
  have hother : ∀ q ∈ db.paymentAttempts, q.pk ≠ p'.pk →
      q.providerPaymentId = p'.providerPaymentId → p'.providerPaymentId = "" := by
    intro q hq hqpk hid
    rcases hfresh with hsame | hnone | hfresh
    · by_contra hc
      have hqp : q = p := hu q hq p hp (hid ▸ hc) (hid.trans hsame)
      exact hqpk (by rw [hqp, hpk])
    · exact hnone
    · exact absurd hid (hfresh q hq (fun hc => hqpk (hc.trans hpk.symm)))
  rcases Table.of_mem_put hx with hxp | ⟨hx', hxne⟩ <;>
    rcases Table.of_mem_put hy with hyp | ⟨hy', hyne⟩
  · rw [hxp, hyp]
  · subst hxp
    exact absurd (hother y hy' hyne heq.symm) hne
  · subst hyp
    exact absurd (heq.trans (hother x hx' hxne heq)) hne
  · exact hu x hx' y hy' hne heq

/-- Binding writes one session id, unique by the database's constraint. -/
theorem bind {attemptPk : ℕ} {session : HostedPaymentSession}
    (hok : bindHostedPaymentSession db attemptPk session = .ok db') : BindingStep db db' := by
  obtain ⟨p, hp, -, hpend, hnone, -, hfresh, rfl⟩ := Inv.bindHostedPaymentSession_eq_ok.mp hok
  exact save { p with providerPaymentId := session.providerPaymentId } hp rfl
    (Or.inr ⟨hnone, hpend⟩) (Or.inr hfresh) rfl

/-- Completing an attempt keeps its session id. -/
theorem complete {attemptPk : ℕ} {transactionId : Option String}
    (hok : completeRetailPayment rt db attemptPk transactionId = .ok db') : BindingStep db db' := by
  obtain ⟨p, hp, -, -, o, -, -, -, -, -, -, p', hsucc, rfl⟩ :=
    Inv.completeRetailPayment_eq_ok.mp hok
  have heq := Inv.succeeded_eq_ok hsucc
  have hid : p'.providerPaymentId = p.providerPaymentId := by rw [heq]
  exact save p' hp (by rw [heq]) (Or.inl hid) (Or.inl hid) rfl

/-- Failing an attempt keeps its session id. -/
theorem fail {attemptPk : ℕ} (hok : failRetailPayment db attemptPk = .ok db') :
    BindingStep db db' := by
  obtain ⟨p, hp, -, -, o, -, -, -, -, rfl⟩ := Inv.failRetailPayment_eq_ok.mp hok
  exact save { p with status := .failed } hp rfl (Or.inl rfl) (Or.inl rfl) rfl

/-- Cancelling an order's PENDING attempts keeps their session ids. -/
theorem cancel {k : ℕ} (hok : cancelPendingPaymentAttemptsForOrder db k = .ok db') :
    BindingStep db db' := by
  have hkept := Inv.cancelPending_induction (P := fun d => Table.Evolves SameId db.paymentAttempts
      d.paymentAttempts ∧ (UniqueProviderIds db → UniqueProviderIds d)) ?_ hok
    ⟨Table.Evolves.refl SameId.refl _, id⟩
  · exact ⟨hkept.1.mono (fun _ _ h => Or.inl h), hkept.2⟩
  · rintro d p ⟨hevolves, hu⟩ hp -
    have hsave : BindingStep d (d.saveAttempt { p with status := .cancelled }) :=
      save { p with status := .cancelled } hp rfl (Or.inl rfl) (Or.inl rfl) rfl
    refine ⟨Table.Evolves.trans (fun _ _ _ h h' => h'.trans h) hevolves ?_, hsave.unique ∘ hu⟩
    exact Table.evolves_put SameId.refl hp rfl rfl

/-- Every operation is a binding step. -/
theorem ofOp (h : Inv rt.now db) (op : Op) : BindingStep db (op.exec rt db) := by
  by_cases hmoves : op.movesPayments = true
  · cases op.attemptMove rt db hmoves with
    | none hsame => exact ofEq (by rw [hsame])
    | start checkoutPk attempt hok => exact start hok
    | begin checkoutPk started attempt hstart session hbind =>
      -- the attempt that is bound is the new one, or an old one that is still as it was
      obtain ⟨o, amount, hpos, hinsert, -⟩ := attempts_of_start hstart
      refine ⟨fun p hp => (bind hbind).binds p ?_, (bind hbind).unique ∘ (start hstart).unique⟩
      exact hinsert ▸ Table.mem_insert.mpr (Or.inl hp)
    | bind attemptPk session hok => exact bind hok
    | complete attemptPk transactionId hok => exact complete hok
    | fail attemptPk hok => exact fail hok
    | cancel orderPk hok => exact cancel hok
  · exact ofEq ((h.exec op).attempts (by simpa using hmoves))

end BindingStep

/-- In every reachable state provider ids are unique. -/
theorem uniqueProviderIds_of_reachable {s : State} (h : Reachable s) : UniqueProviderIds s.db := by
  obtain ⟨ls, hrun⟩ := h
  have hkept := hrun.invariant (I := fun s => Inv s.clock s.db ∧ UniqueProviderIds s.db) ?_
    ⟨Inv.empty 0, fun p hp => absurd hp (Table.not_mem_empty p)⟩
  · exact hkept.2
  · rintro u l v ⟨hinv, hu⟩ hl
    refine ⟨hl.inv hinv, ?_⟩
    obtain ⟨hle, rfl⟩ := hl
    exact (BindingStep.ofOp (hinv.later hle) l.2).unique hu

/-! ### Interleavings -/

/-- What holds of the shared state. -/
def Hosted.Ok (s : Hosted) : Prop := Inv s.system.clock s.system.db ∧ UniqueProviderIds s.system.db

/-- The session is one the provider created for the attempt, and the attempt is bound to it. -/
def Hosted.BoundTo (s : Hosted) (attemptPk : ℕ) (session : HostedPaymentSession) : Prop :=
  (attemptPk, session) ∈ s.issued ∧ session.providerPaymentId ≠ "" ∧
    ∃ p ∈ s.system.db.paymentAttempts, p.pk = attemptPk
      ∧ p.providerPaymentId = session.providerPaymentId

/-- What a caller knows. -/
def SessionCall.Knows (s : Hosted) : SessionCall → Prop
  | .answered attemptPk session =>
      (attemptPk, session) ∈ s.issued ∧ session.providerPaymentId ≠ ""
  | .bound attemptPk session => s.BoundTo attemptPk session
  | .returned redirect => ∃ session, s.BoundTo redirect.attempt.pk session
      ∧ redirect.redirectUrl = session.redirectUrl
      ∧ redirect.attempt.providerPaymentId = session.providerPaymentId
  | _ => True

/-- What every step does to the shared state. -/
structure Hosted.Grows (s t : Hosted) : Prop where
  ok : t.Ok
  binding : BindingStep s.system.db t.system.db
  issued : ∀ e ∈ s.issued, e ∈ t.issued

/-- A bound session stays bound. -/
theorem Hosted.Grows.boundTo {s t : Hosted} (h : s.Grows t) {attemptPk : ℕ}
    {session : HostedPaymentSession} (hb : s.BoundTo attemptPk session) :
    t.BoundTo attemptPk session := by
  obtain ⟨hissued, hne, p, hp, hpk, hid⟩ := hb
  obtain ⟨p', hp', hpk', hbind⟩ := h.binding.binds p hp
  refine ⟨h.issued _ hissued, hne, p', hp', hpk'.trans hpk, ?_⟩
  rcases hbind with hsame | ⟨hnone, -⟩
  · exact hsame.trans hid
  · exact absurd (hid.symm.trans hnone) hne

/-- So what a caller knows stays true. -/
theorem Hosted.Grows.knows {s t : Hosted} (h : s.Grows t) {p : SessionCall} (hp : p.Knows s) :
    p.Knows t := by
  cases p with
  | answered attemptPk session => exact ⟨h.issued _ hp.1, hp.2⟩
  | bound attemptPk session => exact h.boundTo hp
  | returned redirect =>
    obtain ⟨session, hb, hurl, hid⟩ := hp
    exact ⟨session, h.boundTo hb, hurl, hid⟩
  | begin | retry | asking | raised => trivial

/-- Every step of a caller grows the shared state, and the caller knows what it then needs. -/
theorem SessionCall.Step.grows {s t : Hosted} {p p' : SessionCall} (h : SessionCall.Step s p t p')
    (hok : s.Ok) (hp : p.Knows s) : s.Grows t ∧ p'.Knows t := by
  have hself : s.Grows s := ⟨hok, BindingStep.ofEq rfl, fun _ he => he⟩
  -- The steps that write are `start` and `bind`; all others leave the database alone.
  cases h with
  | start hle hstart =>
    have hstep := BindingStep.start hstart
    exact ⟨⟨⟨((hok.1.later hle).start hstart).1, hstep.unique hok.2⟩, hstep, fun _ he => he⟩,
      trivial⟩
  | startRaises hle herr =>
    exact ⟨⟨⟨hok.1.later hle, hok.2⟩, BindingStep.ofEq rfl, fun _ he => he⟩, trivial⟩
  | check hcheck => exact ⟨hself, trivial⟩
  | checkRaises herr => exact ⟨hself, trivial⟩
  | @provider attemptPk session hne =>
    exact ⟨⟨hok, BindingStep.ofEq rfl, fun _ he => List.mem_append_left _ he⟩,
      List.mem_append_right _ (List.mem_singleton.mpr rfl), hne⟩
  | providerRaises => exact ⟨hself, trivial⟩
  | @bind attemptPk session db hbind =>
    have hstep := BindingStep.bind hbind
    obtain ⟨q, hq, hqk, -, -, -, -, rfl⟩ := Inv.bindHostedPaymentSession_eq_ok.mp hbind
    refine ⟨⟨⟨(hok.1.bind hbind).1, hstep.unique hok.2⟩, hstep, fun _ he => he⟩, hp.1, hp.2,
      { q with providerPaymentId := session.providerPaymentId }, ?_, hqk, rfl⟩
    exact (Table.mem_put (r := { q with providerPaymentId := session.providerPaymentId })
      ⟨q, hq, rfl⟩).mpr (Or.inl rfl)
  | bindRaises herr => exact ⟨hself, trivial⟩
  | @refresh attemptPk session attempt hget =>
    obtain ⟨hmem, rfl⟩ := Db.getAttempt_eq_ok.mp hget
    obtain ⟨q, hq, hqk, hid⟩ := hp.2.2
    have hqa : q = attempt := Table.eq_of_pk_eq (t := s.system.db.paymentAttempts) hq hmem hqk
    subst hqa
    exact ⟨hself, session, hp, rfl, hid⟩

/-- So does every other operation. -/
theorem Hosted.grows_of_op {s : Hosted} (hok : s.Ok) {rt : Runtime} (op : Op)
    (hle : s.system.clock ≤ rt.now) : s.Grows (s.commit rt.now (op.exec rt s.system.db)) := by
  have hstep := BindingStep.ofOp (hok.1.later hle) op
  exact ⟨⟨((hok.1.later hle).exec op).inv, hstep.unique hok.2⟩, hstep, fun _ he => he⟩

/-- The invariant of the shared state, and what each caller knows, along every
    interleaving. -/
def sessionsProof (ω : Type) : Proof (hostedSessions ω) where
  inv := Hosted.Ok
  assert _ p s := p.Knows s
  own hok hp h := ⟨(h.grows hok hp).1.ok, (h.grows hok hp).2⟩
  frame _ hok hp hq h := (h.grows hok hp).1.knows hq
  env := by
    rintro s t hok ⟨rt, op, hle, rfl⟩
    exact (Hosted.grows_of_op hok op hle).ok
  envFrame := by
    rintro v q s t hok hq ⟨rt, op, hle, rfl⟩
    exact (Hosted.grows_of_op hok op hle).knows hq

/-- Every step of the interleaving grows the shared state. -/
theorem hosted_grows {ω : Type} [DecidableEq ω] {s t : Pool Hosted SessionCall ω} {m : Move ω}
    (h : (sessionsProof ω).Holds s) (hst : Step (hostedSessions ω) s m t) :
    s.shared.Grows t.shared := by
  cases hst with
  | work hw => exact (hw.grows h.1 (h.2 _)).1
  | env he =>
    obtain ⟨rt, op, hle, rfl⟩ := he
    exact Hosted.grows_of_op h.1 op hle

/-- A bound id is never changed, whatever happens later. -/
theorem ids_kept {ω : Type} [DecidableEq ω] {s t : Pool Hosted SessionCall ω} {ms : List (Move ω)}
    (hs : (sessionsProof ω).Holds s) (h : Run (Step (hostedSessions ω)) s ms t) :
    Table.Evolves (fun p p' => p.providerPaymentId ≠ "" → SameId p p')
      s.shared.system.db.paymentAttempts t.shared.system.db.paymentAttempts := by
  -- The invariant of the run carries the ids of its first state along.
  have hkept := h.invariant (I := fun t => (sessionsProof ω).Holds t ∧
    Table.Evolves (fun p p' => p.providerPaymentId ≠ "" → SameId p p')
      s.shared.system.db.paymentAttempts t.shared.system.db.paymentAttempts) ?_
    ⟨hs, Table.Evolves.refl (fun _ _ => rfl) _⟩
  · exact hkept.2
  · rintro u m v ⟨hu, hids⟩ hst
    refine ⟨(sessionsProof ω).step hu hst, Table.Evolves.trans ?_ hids
      ((hosted_grows hu hst).binding.binds.mono (fun p p' hb hne => ?_))⟩
    · intro p q r hpq hqr hne
      have hsame := hpq hne
      exact (hqr (by rwa [hsame])).trans hsame
    · exact hb.resolve_right (fun hc => hne hc.1)

end SwedeSweets
