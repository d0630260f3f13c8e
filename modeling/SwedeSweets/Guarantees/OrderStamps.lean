import SwedeSweets.Guarantees.Stock
import Mathlib.Data.List.Chain

namespace SwedeSweets

open Relational Fallible

/-!
# Lifecycle stamps

The order services move an order along `allowedTransitions` and stamp each move with its time
and actor.  All of them but `deliver_order` let only an order pass that has yet to make the move;
`deliver_order` has no guard, and the transition to the status an order already has is a silent
no-op, so delivering again overwrites the stamp (`delivery_restamped`).  As long as no DELIVERED
order is delivered again, every stamp is written once (`stamps_write_once`).
-/

/-! ### Calls -/

/-- A policy handed to an order service: it may do anything but write orders. -/
structure OrderPolicy where
  run : Preparation
  keepsOrders : ∀ {db o db'}, run db o = .ok db' → db'.orders = db.orders

namespace OrderPolicy

/-- Placing a business order reserves its lines. -/
def businessPlacement (rt : Runtime) : OrderPolicy where
  run := prepareBusinessOrderForPlacement rt
  keepsOrders h := by
    obtain ⟨-, -, xs, rfl, -⟩ := Inv.prepareBusiness_eq_ok h
    rfl

/-- Placing a retail order makes its payment holds durable. -/
def retailPlacement (rt : Runtime) : OrderPolicy where
  run := makeOrderReservationsPermanentBeforePlacement rt
  keepsOrders h := by
    obtain ⟨-, -, rfl⟩ := makeReservationsPermanentForOrder_eq_ok.mp (mapError_eq_ok.mp h)
    rfl

/-- Editing starts by deleting the reservations. -/
def lineReplacement : OrderPolicy where
  run := clearOrderReservationsBeforeLineReplacement
  keepsOrders h := by
    rw [clearOrderReservationsBeforeLineReplacement, pure_eq_ok] at h
    exact h ▸ rfl

/-- Packing takes what was reserved out of stock. -/
def packing (rt : Runtime) : OrderPolicy where
  run := consumeOrderReservationsBeforePacking rt
  keepsOrders h := by
    obtain ⟨-, -, rfl⟩ := consumeReservationsForOrder_eq_ok.mp (mapError_eq_ok.mp h)
    rfl

/-- Cancelling lets the reservations go. -/
def cancellation : OrderPolicy where
  run := releaseOrderReservationsBeforeCancellation
  keepsOrders {db o db'} h := by
    rw [releaseOrderReservationsBeforeCancellation, cancelReservationsForOrder_eq,
      Except.ok.injEq] at h
    exact h ▸ rfl

end OrderPolicy

/-- A call of an order service. -/
inductive LifecycleCall where
  | placeOrder (orderPk : ℕ) (preparation : OrderPolicy) (user : Option ℕ)
  | updatePlacedOrder (orderPk : ℕ) (lines : List ResolvedOrderLine)
      (beforeReplacement preparation : OrderPolicy) (user : Option ℕ)
  | packOrder (orderPk : ℕ) (preparation : OrderPolicy) (user : Option ℕ)
  | deliverOrder (orderPk : ℕ) (user : Option ℕ)
  | cancelOrder (orderPk : ℕ) (preparation : OrderPolicy) (user : Option ℕ) (reason note : String)

namespace LifecycleCall

def run (rt : Runtime) (db : Db) : LifecycleCall → Result Db
  | placeOrder orderPk preparation user =>
      SwedeSweets.placeOrder rt db orderPk preparation.run user
  | updatePlacedOrder orderPk lines beforeReplacement preparation user =>
      SwedeSweets.updatePlacedOrder rt db orderPk lines beforeReplacement.run preparation.run user
  | packOrder orderPk preparation user =>
      SwedeSweets.packOrder rt db orderPk preparation.run user
  | deliverOrder orderPk user => SwedeSweets.deliverOrder rt db orderPk user
  | cancelOrder orderPk preparation user reason note =>
      SwedeSweets.cancelOrder rt db orderPk preparation.run user reason note

/-- The database after a call, which may have been rejected. -/
def exec (rt : Runtime) (db : Db) (call : LifecycleCall) : Db := db.commit (call.run rt db)

/-- The order a call of `deliver_order` is on. -/
def delivers : LifecycleCall → Option ℕ
  | deliverOrder orderPk _ => some orderPk
  | _ => none

end LifecycleCall

/-- The rows an order passes through, from the one it has on. -/
def history (k : ℕ) : Db → List (Runtime × LifecycleCall) → List Order
  | db, [] => (db.orders.get? k).toList
  | db, (rt, call) :: calls => (db.orders.get? k).toList ++ history k (call.exec rt db) calls

/-! ### Stamps -/

/-- One stamp, a time and an actor: once there is something, it stays. -/
def StampKept (at₁ at₂ : Option Time) (by₁ by₂ : Option ℕ) : Prop :=
  at₁ ≠ none ∨ by₁ ≠ none → at₂ = at₁ ∧ by₂ = by₁

instance (at₁ at₂ : Option Time) (by₁ by₂ : Option ℕ) : Decidable (StampKept at₁ at₂ by₁ by₂) :=
  inferInstanceAs (Decidable (_ → _))

/-- No stamp that is set changes. -/
structure WriteOnce (o o' : Order) : Prop where
  placed : StampKept o.placedAt o'.placedAt o.placedBy o'.placedBy
  packed : StampKept o.packedAt o'.packedAt o.packedBy o'.packedBy
  delivered : StampKept o.deliveredAt o'.deliveredAt o.deliveredBy o'.deliveredBy
  cancelled : StampKept o.cancelledAt o'.cancelledAt o.cancelledBy o'.cancelledBy

/-- The order keeps its status or moves along an allowed transition. -/
def Follows (status status' : OrderStatus) : Prop :=
  status' = status ∨ status' ∈ Order.allowedTransitions status

/-- Stamps are write-once, and the statuses follow the allowed transitions. -/
structure StampsWriteOnce (k : ℕ) (db : Db) (calls : List (Runtime × LifecycleCall)) : Prop where
  length : (history k db calls).length = calls.length + 1
  writeOnce : (history k db calls).Pairwise WriteOnce
  transitions : ((history k db calls).map Order.status).IsChain Follows

/-- No call of the sequence delivers an order that is DELIVERED when it is called. -/
def DeliveredOnce : Db → List (Runtime × LifecycleCall) → Prop
  | _, [] => True
  | db, (rt, call) :: calls =>
      (∀ o ∈ db.orders, call.delivers = some o.pk → o.status ≠ .delivered)
        ∧ DeliveredOnce (call.exec rt db) calls

instance decidableDeliveredOnce :
    (db : Db) → (calls : List (Runtime × LifecycleCall)) → Decidable (DeliveredOnce db calls)
  | _, [] => isTrue trivial
  | db, (rt, call) :: calls =>
      have := decidableDeliveredOnce (call.exec rt db) calls
      inferInstanceAs (Decidable ((∀ o ∈ db.orders, _ → _) ∧ _))

/-- A stamp left alone is kept. -/
theorem StampKept.refl (t : Option Time) (u : Option ℕ) : StampKept t t u u := fun _ => ⟨rfl, rfl⟩

/-- A stamp is kept through two steps. -/
theorem StampKept.trans {at₁ at₂ at₃ : Option Time} {by₁ by₂ by₃ : Option ℕ}
    (h : StampKept at₁ at₂ by₁ by₂) (h' : StampKept at₂ at₃ by₂ by₃) :
    StampKept at₁ at₃ by₁ by₃ := by
  intro hset
  obtain ⟨rfl, rfl⟩ := h hset
  exact h' hset

/-- A blank stamp may be filled in. -/
theorem StampKept.of_blank {t : Option Time} {u : Option ℕ} (h : t = none ∧ u = none)
    (t' : Option Time) (u' : Option ℕ) : StampKept t t' u u' := by
  rintro (hset | hset)
  · exact absurd h.1 hset
  · exact absurd h.2 hset

/-- An order left alone keeps its stamps. -/
theorem WriteOnce.refl (o : Order) : WriteOnce o o :=
  ⟨.refl _ _, .refl _ _, .refl _ _, .refl _ _⟩

/-- An order keeps its stamps through two steps. -/
theorem WriteOnce.trans {o o' o'' : Order} (h : WriteOnce o o') (h' : WriteOnce o' o'') :
    WriteOnce o o'' :=
  ⟨h.placed.trans h'.placed, h.packed.trans h'.packed, h.delivered.trans h'.delivered,
    h.cancelled.trans h'.cancelled⟩

instance : Trans WriteOnce WriteOnce WriteOnce := ⟨WriteOnce.trans⟩

/-- An order carries no stamp of a move it has not made. -/
structure Stamped (o : Order) : Prop where
  placed : o.status = .draft → o.placedAt = none ∧ o.placedBy = none
  packed : o.status = .draft ∨ o.status = .placed → o.packedAt = none ∧ o.packedBy = none
  delivered : o.status ≠ .delivered → o.deliveredAt = none ∧ o.deliveredBy = none
  cancelled : o.status ≠ .cancelled → o.cancelledAt = none ∧ o.cancelledBy = none

/-- A new order has no stamps. -/
theorem stamped_newOrder (rt : Runtime) (channel : Channel) (currency : Currency)
    (customer : Option ℕ) (k : ℕ) : Stamped ((newOrder rt channel currency customer).make k) :=
  ⟨fun _ => ⟨rfl, rfl⟩, fun _ => ⟨rfl, rfl⟩, fun _ => ⟨rfl, rfl⟩, fun _ => ⟨rfl, rfl⟩⟩

/-- One step of the row of an order. -/
structure LifecycleStep (o o' : Order) : Prop where
  stamped : Stamped o'
  writeOnce : WriteOnce o o'
  status : Follows o.status o'.status

/-- Doing nothing is a step. -/
theorem LifecycleStep.refl {o : Order} (h : Stamped o) : LifecycleStep o o :=
  ⟨h, WriteOnce.refl o, Or.inl rfl⟩

/-! ### One call -/

/-- The order with the stamp of its next status is one step further. -/
theorem lifecycleStep_placed {o : Order} (h : Stamped o) (hst : o.status = .draft) (now : Time)
    (user : Option ℕ) : LifecycleStep o (o.asPlaced now user) where
  stamped := by
    refine ⟨fun hd => ?_, fun _ => h.packed (Or.inl hst), fun _ => h.delivered ?_,
      fun _ => h.cancelled ?_⟩
    · cases hd
    all_goals
      rw [hst]
      decide
  writeOnce := ⟨.of_blank (h.placed hst) _ _, .refl _ _, .refl _ _, .refl _ _⟩
  status := by
    right
    show OrderStatus.placed ∈ Order.allowedTransitions o.status
    rw [hst]
    decide

/-- **Packing.** -/
theorem lifecycleStep_packed {o : Order} (h : Stamped o) (hst : o.status = .placed) (now : Time)
    (user : Option ℕ) :
    LifecycleStep o { o with status := .packed, packedAt := some now, packedBy := user } where
  stamped := by
    refine ⟨fun hd => ?_, fun hd => ?_, fun _ => h.delivered ?_, fun _ => h.cancelled ?_⟩
    · cases hd
    · rcases hd with hd | hd <;> cases hd
    all_goals
      rw [hst]
      decide
  writeOnce := ⟨.refl _ _, .of_blank (h.packed (Or.inr hst)) _ _, .refl _ _, .refl _ _⟩
  status := by
    right
    show OrderStatus.packed ∈ Order.allowedTransitions o.status
    rw [hst]
    decide

/-- **Delivery.** -/
theorem lifecycleStep_delivered {o : Order} (h : Stamped o) (hst : o.status = .packed) (now : Time)
    (user : Option ℕ) :
    LifecycleStep o { o with status := .delivered, deliveredAt := some now, deliveredBy := user } where
  stamped := by
    refine ⟨fun hd => ?_, fun hd => ?_, fun hd => absurd rfl hd, fun _ => h.cancelled ?_⟩
    · cases hd
    · rcases hd with hd | hd <;> cases hd
    · rw [hst]
      decide
  writeOnce := by
    refine ⟨.refl _ _, .refl _ _, .of_blank (h.delivered ?_) _ _, .refl _ _⟩
    rw [hst]
    decide
  status := by
    right
    show OrderStatus.delivered ∈ Order.allowedTransitions o.status
    rw [hst]
    decide

/-- **Cancellation.** -/
theorem lifecycleStep_cancelled {o : Order} (h : Stamped o)
    (hst : o.status = .draft ∨ o.status = .placed) (now : Time) (user : Option ℕ)
    (reason note : String) :
    LifecycleStep o { o with
      status := .cancelled, cancelledAt := some now, cancelledBy := user,
      cancelReason := reason, cancelNote := note } where
  stamped := by
    refine ⟨fun hd => ?_, fun hd => ?_, fun _ => h.delivered ?_, fun hd => absurd rfl hd⟩
    · cases hd
    · rcases hd with hd | hd <;> cases hd
    · rcases hst with hst | hst <;> rw [hst] <;> decide
  writeOnce := by
    refine ⟨.refl _ _, .refl _ _, .refl _ _, .of_blank (h.cancelled ?_) _ _⟩
    rcases hst with hst | hst <;> rw [hst] <;> decide
  status := by
    right
    show OrderStatus.cancelled ∈ Order.allowedTransitions o.status
    rcases hst with hst | hst <;> rw [hst] <;> decide

/-- **Step.** A call that returns rewrites one order, by one step unless it delivers an order
    that is DELIVERED. -/
theorem run_steps {rt : Runtime} {db db' : Db} {call : LifecycleCall} (h : call.run rt db = .ok db') :
    ∃ o ∈ db.orders, ∃ (db₁ : Db) (o' : Order), db₁.orders = db.orders ∧ db' = db₁.saveOrder o' ∧
      o'.pk = o.pk ∧
      (Stamped o → (call.delivers = some o.pk → o.status ≠ .delivered) → LifecycleStep o o') := by
  -- One case for each call; each saves the order it locked.
  cases call with
  | placeOrder k preparation user =>
    obtain ⟨o, ho, -, hst, db₁, hprep, rfl⟩ := placeOrder_eq_ok.mp h
    exact ⟨o, ho, db₁, _, preparation.keepsOrders hprep, rfl, rfl,
      fun hs _ => lifecycleStep_placed hs hst rt.now user⟩
  | updatePlacedOrder k lines before preparation user =>
    obtain ⟨o, ho, -, hst, incoming, existing, -, -, db₁, db₂, db₃, hbefore, hreplace, hprep, rfl⟩ :=
      updatePlacedOrder_eq_ok h
    have hreplaced : db₂.orders = db₁.orders := by
      unfold replaceLines at hreplace
      obtain ⟨retained, -, hcreate⟩ := bind_eq_ok.mp hreplace
      obtain ⟨xs, -, rfl⟩ := createOrderLines_eq_ok hcreate
      rfl
    have horders : db₃.orders = db.orders :=
      (preparation.keepsOrders hprep).trans (hreplaced.trans (before.keepsOrders hbefore))
    refine ⟨o, ho, db₃, o.markAsEdited rt user, horders, rfl, rfl, fun hs _ => ?_⟩
    exact ⟨⟨hs.placed, hs.packed, hs.delivered, hs.cancelled⟩,
      ⟨.refl _ _, .refl _ _, .refl _ _, .refl _ _⟩, Or.inl rfl⟩
  | packOrder k preparation user =>
    obtain ⟨o, ho, -, hst, db₁, hprep, rfl⟩ := packOrder_eq_ok.mp h
    exact ⟨o, ho, db₁, _, preparation.keepsOrders hprep, rfl, rfl,
      fun hs _ => lifecycleStep_packed hs hst rt.now user⟩
  | deliverOrder k user =>
    obtain ⟨o, ho, hk, hst, rfl⟩ := deliverOrder_eq_ok.mp h
    refine ⟨o, ho, db, _, rfl, rfl, rfl, fun hs hnew => ?_⟩
    -- A DELIVERED order passes the transition guard as well.
    rcases hst with hst | hst
    · exact lifecycleStep_delivered hs hst rt.now user
    · exact absurd hst (hnew (congrArg some hk.symm))
  | cancelOrder k preparation user reason note =>
    obtain ⟨o, ho, -, hst, db₁, hprep, -, -, rfl⟩ := cancelOrder_eq_ok.mp h
    exact ⟨o, ho, db₁, _, preparation.keepsOrders hprep, rfl, rfl,
      fun hs _ => lifecycleStep_cancelled hs hst rt.now user reason (Text.strip note)⟩

/-- A call takes the row of an order one step further, or leaves it; also when it is rejected. -/
theorem exec_steps {rt : Runtime} {db : Db} {call : LifecycleCall} {k : ℕ} {o : Order}
    (hget : db.orders.get? k = some o) (hs : Stamped o)
    (hnew : ∀ x ∈ db.orders, call.delivers = some x.pk → x.status ≠ .delivered) :
    ∃ o', (call.exec rt db).orders.get? k = some o' ∧ LifecycleStep o o' := by
  unfold LifecycleCall.exec
  cases hrun : call.run rt db with
  | error e => exact ⟨o, hget, LifecycleStep.refl hs⟩
  | ok db' =>
    obtain ⟨x, hx, db₁, x', horders, rfl, hpk, hstep⟩ := run_steps hrun
    -- Only the saved order's row is another one.
    have hget' : (db₁.saveOrder x').orders.get? k = if k = x'.pk then some x' else some o := by
      have hex : ∃ y ∈ db₁.orders, Row.pk y = Row.pk x' := ⟨x, horders ▸ hx, hpk.symm⟩
      rw [← hget, ← horders]
      exact Table.get?_put hex k
    by_cases hk : k = x'.pk
    · -- the call was on this order
      have hxo : x = o := by
        have hself := Table.get?_self hx
        rw [pk_order, ← hpk, ← hk, hget, Option.some.injEq] at hself
        exact hself.symm
      subst hxo
      exact ⟨x', hget'.trans (if_pos hk), hstep hs (hnew x hx)⟩
    · exact ⟨o, hget'.trans (if_neg hk), LifecycleStep.refl hs⟩

/-! ### A sequence of calls -/

/-- The row an order has, and the rows it passes through from there. -/
theorem history_eq {k : ℕ} {db : Db} {o : Order} (hget : db.orders.get? k = some o)
    (calls : List (Runtime × LifecycleCall)) : ∃ rest, history k db calls = o :: rest := by
  cases calls with
  | nil => exact ⟨[], by rw [history, hget, Option.toList_some]⟩
  | cons c calls =>
    obtain ⟨rt, call⟩ := c
    exact ⟨history k (call.exec rt db) calls, by rw [history, hget]; rfl⟩

/-- **Run.** The rows an order passes through are one step apart. -/
theorem history_steps {k : ℕ} {calls : List (Runtime × LifecycleCall)} {db : Db} {o : Order}
    (hget : db.orders.get? k = some o) (hs : Stamped o) (honce : DeliveredOnce db calls) :
    (history k db calls).IsChain LifecycleStep
      ∧ (history k db calls).length = calls.length + 1 := by
  -- By induction on the calls.
  induction calls generalizing db o with
  | nil =>
    rw [history, hget]
    exact ⟨List.isChain_singleton o, rfl⟩
  | cons c calls ih =>
    obtain ⟨rt, call⟩ := c
    obtain ⟨o', hget', hstep⟩ := exec_steps hget hs honce.1
    obtain ⟨hchain, hlength⟩ := ih hget' hstep.stamped honce.2
    obtain ⟨rest, hrest⟩ := history_eq hget' calls
    rw [history, hget, Option.toList_some, List.singleton_append]
    refine ⟨?_, congrArg (· + 1) hlength⟩
    rw [hrest] at hchain ⊢
    exact List.isChain_cons_cons.mpr ⟨hstep, hchain⟩

/-- **Stamps.** An order that was just created is only stamped once for each of its moves, and
    moves along the allowed transitions, by whatever calls follow, when none of them delivers an
    order that is DELIVERED already. -/
theorem stamps_write_once {k : ℕ} {db : Db} {rt : Runtime} {channel : Channel}
    {currency : Currency} {customer : Option ℕ} {calls : List (Runtime × LifecycleCall)}
    (hnew : (newOrder rt channel currency customer).make k ∈ db.orders)
    (honce : DeliveredOnce db calls) : StampsWriteOnce k db calls := by
  have hget := Table.get?_self hnew
  rw [(newOrder rt channel currency customer).pk_make k] at hget
  obtain ⟨hchain, hlength⟩ := history_steps hget (stamped_newOrder ..) honce
  refine ⟨hlength, ?_, ?_⟩
  · exact (hchain.imp (fun _ _ hstep => hstep.writeOnce)).pairwise
  · exact (List.isChain_map _).mpr (hchain.imp (fun _ _ hstep => hstep.status))

namespace Shop

/-- A business draft of three units. -/
def oneDraft : Db := (State.init.after (opening ++
  [ (runtime 1, .openDraft 7),
    (runtime 1, .addDraftLine 1 ⟨product, 3, businessOffer, none⟩) ])).db

/-- The draft is placed, packed and delivered, each by somebody else. -/
def fulfilment : List (Runtime × LifecycleCall) :=
  [ (runtime 2, .placeOrder 1 (.businessPlacement (runtime 2)) (some 1)),
    (runtime 3, .packOrder 1 (.packing (runtime 3)) (some 2)),
    (runtime 4, .deliverOrder 1 (some 3)) ]

/-- And delivered again by a fourth person. -/
def secondDelivery : List (Runtime × LifecycleCall) :=
  fulfilment ++ [(runtime 5, .deliverOrder 1 (some 4))]

/-- The example's order is a new one. -/
theorem oneDraft_new : (newOrder (runtime 1) .business .eur (some 7)).make 1 ∈ oneDraft.orders :=
  Table.mem_def.mpr (by decide +kernel)

end Shop

/-- Delivered once, the order keeps its stamps, also when its cancellation is then rejected. -/
theorem stamps_write_once_shop :
    StampsWriteOnce 1 Shop.oneDraft
        (Shop.fulfilment ++ [(Shop.runtime 5, .cancelOrder 1 .cancellation none "" "")])
      ∧ (history 1 Shop.oneDraft Shop.fulfilment).map Order.status
        = [.draft, .placed, .packed, .delivered] :=
  ⟨stamps_write_once Shop.oneDraft_new (by decide +kernel), by decide +kernel⟩

/-- **Delivered twice.** The second delivery is accepted and overwrites who delivered the order
    and when. -/
theorem delivery_restamped :
    (newOrder (Shop.runtime 1) .business .eur (some 7)).make 1 ∈ Shop.oneDraft.orders
      ∧ (history 1 Shop.oneDraft Shop.secondDelivery).map
          (fun o => (o.status, o.deliveredAt, o.deliveredBy))
        = [(.draft, none, none), (.placed, none, none), (.packed, none, none),
          (.delivered, some 4, some 3), (.delivered, some 5, some 4)]
      ∧ ¬ StampsWriteOnce 1 Shop.oneDraft Shop.secondDelivery := by
  have hrows : (history 1 Shop.oneDraft Shop.secondDelivery).map
      (fun o => (o.status, o.deliveredAt, o.deliveredBy))
        = [(.draft, none, none), (.placed, none, none), (.packed, none, none),
          (.delivered, some 4, some 3), (.delivered, some 5, some 4)] := by
    decide +kernel
  refine ⟨Shop.oneDraft_new, hrows, fun hwrite => ?_⟩
  -- The last two stamps of the delivery differ.
  have hpairs : ((history 1 Shop.oneDraft Shop.secondDelivery).map
      (fun o => (o.status, o.deliveredAt, o.deliveredBy))).Pairwise
        (fun x y => StampKept x.2.1 y.2.1 x.2.2 y.2.2) :=
    List.pairwise_map.mpr (hwrite.writeOnce.imp (fun hkept => hkept.delivered))
  rw [hrows] at hpairs
  exact absurd hpairs (by decide)

end SwedeSweets
