import SwedeSweets.Accounts.Activity

namespace SwedeSweets

open Relational

/-!
# The activity feed is exact

* `OrderEvent`, `ProductEvent`, `InventoryEvent`, `CustomerEvent` — what an actor has done, read
  off the fields of a row, stamp by stamp; `AccountEvent` — all of it, as events of the account.
  They are stated without the queries of the feed;
* `ExactFeed` — a feed has the first timestamps of all these events in order, and lists no event
  twice;
* `actorEvents`, `accountEvents` — what the queries of the feed return without a limit;
  `mem_orderEvents` to `mem_accountEvents` say that it is these events;
* `activity_feed_exact` — the domains truncate each stamp and then their union, and the account
  truncates what they have left; nothing that belongs in a feed is lost on the way.
-/

/-! ### What an actor has done -/

/-- The actor stamped an order of the table: the field of the stamp's user names the actor, and
    the field of its time has that time. -/
inductive OrderEvent (table : Table Order) (actor : ℕ) : Activity Order OrderActivityKind → Prop where
  | placed {o : Order} {t : Time} : o ∈ table → o.placedBy = some actor → o.placedAt = some t →
      OrderEvent table actor ⟨t, .placed, o⟩
  | packed {o : Order} {t : Time} : o ∈ table → o.packedBy = some actor → o.packedAt = some t →
      OrderEvent table actor ⟨t, .packed, o⟩
  | delivered {o : Order} {t : Time} : o ∈ table → o.deliveredBy = some actor →
      o.deliveredAt = some t → OrderEvent table actor ⟨t, .delivered, o⟩
  | cancelled {o : Order} {t : Time} : o ∈ table → o.cancelledBy = some actor →
      o.cancelledAt = some t → OrderEvent table actor ⟨t, .cancelled, o⟩
  | edited {o : Order} {t : Time} : o ∈ table → o.editedBy = some actor → o.editedAt = some t →
      OrderEvent table actor ⟨t, .edited, o⟩

/-- Likewise a product; it always has the time of its creation. -/
inductive ProductEvent (table : Table ProductRow) (actor : ℕ) :
    Activity ProductRow ProductActivityKind → Prop where
  | created {p : ProductRow} : p ∈ table → p.createdBy = some actor →
      ProductEvent table actor ⟨p.createdAt, .created, p⟩
  | edited {p : ProductRow} {t : Time} : p ∈ table → p.editedBy = some actor →
      p.editedAt = some t → ProductEvent table actor ⟨t, .edited, p⟩
  | activated {p : ProductRow} {t : Time} : p ∈ table → p.activatedBy = some actor →
      p.activatedAt = some t → ProductEvent table actor ⟨t, .activated, p⟩
  | deactivated {p : ProductRow} {t : Time} : p ∈ table → p.deactivatedBy = some actor →
      p.deactivatedAt = some t → ProductEvent table actor ⟨t, .deactivated, p⟩

/-- Likewise a batch. -/
inductive InventoryEvent (table : Table InventoryBatch) (actor : ℕ) :
    Activity InventoryBatch InventoryActivityKind → Prop where
  | added {b : InventoryBatch} : b ∈ table → b.createdBy = some actor →
      InventoryEvent table actor ⟨b.createdAt, .added, b⟩
  | edited {b : InventoryBatch} {t : Time} : b ∈ table → b.editedBy = some actor →
      b.editedAt = some t → InventoryEvent table actor ⟨t, .edited, b⟩
  | closed {b : InventoryBatch} {t : Time} : b ∈ table → b.closedBy = some actor →
      b.closedAt = some t → InventoryEvent table actor ⟨t, .closed, b⟩

/-- Likewise a customer. -/
inductive CustomerEvent (table : Table Customer) (actor : ℕ) :
    Activity Customer CustomerActivityKind → Prop where
  | created {c : Customer} : c ∈ table → c.createdBy = some actor →
      CustomerEvent table actor ⟨c.createdAt, .created, c⟩
  | edited {c : Customer} {t : Time} : c ∈ table → c.editedBy = some actor →
      c.editedAt = some t → CustomerEvent table actor ⟨t, .edited, c⟩
  | activated {c : Customer} {t : Time} : c ∈ table → c.activatedBy = some actor →
      c.activatedAt = some t → CustomerEvent table actor ⟨t, .activated, c⟩
  | deactivated {c : Customer} {t : Time} : c ∈ table → c.deactivatedBy = some actor →
      c.deactivatedAt = some t → CustomerEvent table actor ⟨t, .deactivated, c⟩

/-- What a user has done in any of the domains. -/
inductive AccountEvent (tables : StampedTables) (user : ℕ) : AccountActivity → Prop where
  | orderPlaced {o : Order} {t : Time} : OrderEvent tables.orders user ⟨t, .placed, o⟩ →
      AccountEvent tables user ⟨t, .orderPlaced, .order o⟩
  | orderPacked {o : Order} {t : Time} : OrderEvent tables.orders user ⟨t, .packed, o⟩ →
      AccountEvent tables user ⟨t, .orderPacked, .order o⟩
  | orderDelivered {o : Order} {t : Time} : OrderEvent tables.orders user ⟨t, .delivered, o⟩ →
      AccountEvent tables user ⟨t, .orderDelivered, .order o⟩
  | orderCancelled {o : Order} {t : Time} : OrderEvent tables.orders user ⟨t, .cancelled, o⟩ →
      AccountEvent tables user ⟨t, .orderCancelled, .order o⟩
  | orderEdited {o : Order} {t : Time} : OrderEvent tables.orders user ⟨t, .edited, o⟩ →
      AccountEvent tables user ⟨t, .orderEdited, .order o⟩
  | productCreated {p : ProductRow} {t : Time} :
      ProductEvent tables.products user ⟨t, .created, p⟩ →
      AccountEvent tables user ⟨t, .productCreated, .product p⟩
  | productEdited {p : ProductRow} {t : Time} :
      ProductEvent tables.products user ⟨t, .edited, p⟩ →
      AccountEvent tables user ⟨t, .productEdited, .product p⟩
  | productActivated {p : ProductRow} {t : Time} :
      ProductEvent tables.products user ⟨t, .activated, p⟩ →
      AccountEvent tables user ⟨t, .productActivated, .product p⟩
  | productDeactivated {p : ProductRow} {t : Time} :
      ProductEvent tables.products user ⟨t, .deactivated, p⟩ →
      AccountEvent tables user ⟨t, .productDeactivated, .product p⟩
  | inventoryAdded {b : InventoryBatch} {t : Time} :
      InventoryEvent tables.batches user ⟨t, .added, b⟩ →
      AccountEvent tables user ⟨t, .inventoryAdded, .batch b⟩
  | inventoryEdited {b : InventoryBatch} {t : Time} :
      InventoryEvent tables.batches user ⟨t, .edited, b⟩ →
      AccountEvent tables user ⟨t, .inventoryEdited, .batch b⟩
  | inventoryClosed {b : InventoryBatch} {t : Time} :
      InventoryEvent tables.batches user ⟨t, .closed, b⟩ →
      AccountEvent tables user ⟨t, .inventoryClosed, .batch b⟩
  | customerCreated {c : Customer} {t : Time} :
      CustomerEvent tables.customers user ⟨t, .created, c⟩ →
      AccountEvent tables user ⟨t, .customerCreated, .customer c⟩
  | customerEdited {c : Customer} {t : Time} :
      CustomerEvent tables.customers user ⟨t, .edited, c⟩ →
      AccountEvent tables user ⟨t, .customerEdited, .customer c⟩
  | customerActivated {c : Customer} {t : Time} :
      CustomerEvent tables.customers user ⟨t, .activated, c⟩ →
      AccountEvent tables user ⟨t, .customerActivated, .customer c⟩
  | customerDeactivated {c : Customer} {t : Time} :
      CustomerEvent tables.customers user ⟨t, .deactivated, c⟩ →
      AccountEvent tables user ⟨t, .customerDeactivated, .customer c⟩

/-- The list has every event, and none twice. -/
structure Enumerates {α K : Type} (event : Activity α K → Prop) (events : List (Activity α K)) :
    Prop where
  mem : ∀ a, a ∈ events ↔ event a
  nodup : events.Nodup

/-- There are finitely many events; the feed has the newest `n` timestamps of them, however they
    are enumerated, and lists events, none twice. -/
structure ExactFeed {α K : Type} (n : ℕ) (event : Activity α K → Prop)
    (feed : List (Activity α K)) : Prop where
  finite : ∃ events, Enumerates event events
  timestamps : ∀ events, Enumerates event events → feed.map Activity.occurredAt
    = (sortDescending id (events.map Activity.occurredAt)).take n
  subset : ∀ a ∈ feed, event a
  nodup : feed.Nodup

section

variable {α K : Type} [Row α]

/-- What the queries of a domain return without a limit. -/
def actorEvents (specs : List (ActivitySpec α K)) (table : Table α) (actor : ℕ) :
    List (Activity α K) :=
  specs.flatMap (fun spec => (spec.rows table actor).map spec.activity)

/-- The events behind a feed: what a specification says of a row of the table. -/
theorem mem_actorEvents {specs : List (ActivitySpec α K)} {table : Table α} {actor : ℕ}
    {a : Activity α K} : a ∈ actorEvents specs table actor ↔
      ∃ spec ∈ specs, a.target ∈ table ∧ spec.actor a.target = some actor
        ∧ spec.occurredAt a.target = some a.occurredAt ∧ spec.kind = a.kind := by
  unfold actorEvents ActivitySpec.rows
  simp only [List.mem_flatMap, List.mem_map, Table.mem_select, decide_eq_true_eq]
  refine exists_congr (fun spec => and_congr_right (fun _ => ?_))
  -- A row is selected when the actor is named and the time is set.
  constructor
  · rintro ⟨row, ⟨hrow, hactor, hstamped⟩, rfl⟩
    obtain ⟨t, ht⟩ := Option.ne_none_iff_exists'.mp hstamped
    refine ⟨hrow, hactor, ?_, rfl⟩
    show spec.occurredAt row = some ((spec.occurredAt row).getD 0)
    rw [ht, Option.getD_some]
  · rintro ⟨hrow, hactor, htime, hkind⟩
    refine ⟨a.target, ⟨hrow, hactor, by rw [htime]; exact Option.some_ne_none _⟩, ?_⟩
    unfold ActivitySpec.activity ActivitySpec.time
    rw [htime, Option.getD_some, hkind]

omit [Row α] in
/-- A top of all the events is an exact feed. -/
theorem ExactFeed.of_isTop {n : ℕ} {event : Activity α K → Prop}
    {events feed : List (Activity α K)} (h : IsTop Activity.occurredAt n events feed)
    (henum : Enumerates event events) : ExactFeed n event feed where
  finite := ⟨events, henum⟩
  timestamps events' henum' := by
    -- two enumerations of the events have the same timestamps, in some order
    have hperm : events'.Perm events := (List.perm_ext_iff_of_nodup henum'.nodup henum.nodup).mpr
      (fun a => (henum'.mem a).trans (henum.mem a).symm)
    have hsame : IsTop Activity.occurredAt n events' feed := by
      obtain ⟨all, hall, hsorted, rfl⟩ := h
      exact ⟨all, hall.trans hperm.symm, hsorted, rfl⟩
    exact hsame.keys_eq
  subset a ha := (henum.mem a).mp (h.subset ha)
  nodup := h.nodup henum.nodup

/-! ### One domain -/

/-- One query returns the newest events of one stamp. -/
theorem isTop_query (order : NewestFirst α) (spec : ActivitySpec α K) (table : Table α)
    (actor n : ℕ) :
    IsTop Activity.occurredAt n ((spec.rows table actor).map spec.activity)
      (((order.arrange spec.time (spec.rows table actor)).take n).map spec.activity) :=
  IsTop.map (fun _ => rfl) ⟨_, order.perm spec.time _, order.descending spec.time _, rfl⟩

/-- A domain feed is a top of the actor's events. -/
theorem isTop_listActivityForActor (order : K → NewestFirst α) (specs : List (ActivitySpec α K))
    (table : Table α) (actor n : ℕ) :
    IsTop Activity.occurredAt n (actorEvents specs table actor)
      (listActivityForActor order specs table actor n) := by
  unfold listActivityForActor actorEvents sortNewestFirst
  rw [List.flatMap_def, List.flatMap_def]
  refine IsTop.merge ?_ (isTop_sortDescending _ _ _)
  rw [List.forall₂_map_left_iff, List.forall₂_map_right_iff, List.forall₂_same]
  exact fun spec _ => isTop_query (order spec.kind) spec table actor n

/-- Stamps of different kinds give different events. -/
theorem nodup_actorEvents {specs : List (ActivitySpec α K)}
    (hkinds : (specs.map ActivitySpec.kind).Nodup) (table : Table α) (actor : ℕ) :
    (actorEvents specs table actor).Nodup := by
  unfold actorEvents
  rw [List.nodup_flatMap]
  constructor
  · intro spec _
    have hrows : (spec.rows table actor).Nodup := List.Nodup.of_map _ (Table.select_nodup_pk _ _)
    refine hrows.map (fun row row' h => ?_)
    exact congrArg Activity.target h
  · refine (List.pairwise_map.mp hkinds).imp (fun {spec spec'} hne a ha ha' => ?_)
    obtain ⟨row, -, rfl⟩ := List.mem_map.mp ha
    obtain ⟨row', -, heq⟩ := List.mem_map.mp ha'
    exact hne (congrArg Activity.kind heq).symm

end

section

variable {actor : ℕ}

/-- **Orders.** The queries return what the actor has done to orders. -/
theorem mem_orderEvents {table : Table Order}
    {a : Activity Order OrderActivityKind} :
    a ∈ actorEvents orderActivitySpecs table actor ↔ OrderEvent table actor a := by
  simp only [mem_actorEvents, orderActivitySpecs, List.exists_mem_cons_iff, List.not_mem_nil,
    false_and, exists_false, or_false]
  -- The specification table against the events, kind by kind.
  constructor
  · obtain ⟨t, kind, o⟩ := a
    rintro (⟨ho, hactor, htime, hkind⟩ | ⟨ho, hactor, htime, hkind⟩ |
      ⟨ho, hactor, htime, hkind⟩ | ⟨ho, hactor, htime, hkind⟩ | ⟨ho, hactor, htime, hkind⟩)
    all_goals subst hkind
    · exact .placed ho hactor htime
    · exact .packed ho hactor htime
    · exact .delivered ho hactor htime
    · exact .cancelled ho hactor htime
    · exact .edited ho hactor htime
  · intro h
    cases h with
    | placed ho hactor htime => exact Or.inl ⟨ho, hactor, htime, rfl⟩
    | packed ho hactor htime => exact Or.inr (Or.inl ⟨ho, hactor, htime, rfl⟩)
    | delivered ho hactor htime => exact Or.inr (Or.inr (Or.inl ⟨ho, hactor, htime, rfl⟩))
    | cancelled ho hactor htime => exact Or.inr (Or.inr (Or.inr (Or.inl ⟨ho, hactor, htime, rfl⟩)))
    | edited ho hactor htime => exact Or.inr (Or.inr (Or.inr (Or.inr ⟨ho, hactor, htime, rfl⟩)))

/-- **Products.** The queries return what the actor has done to products. -/
theorem mem_productEvents {table : Table ProductRow}
    {a : Activity ProductRow ProductActivityKind} :
    a ∈ actorEvents productActivitySpecs table actor ↔ ProductEvent table actor a := by
  simp only [mem_actorEvents, productActivitySpecs, List.exists_mem_cons_iff, List.not_mem_nil,
    false_and, exists_false, or_false]
  constructor
  · obtain ⟨t, kind, p⟩ := a
    rintro (⟨hp, hactor, htime, hkind⟩ | ⟨hp, hactor, htime, hkind⟩ |
      ⟨hp, hactor, htime, hkind⟩ | ⟨hp, hactor, htime, hkind⟩)
    all_goals subst hkind
    · have htime : p.createdAt = t := Option.some.inj htime
      subst htime
      exact .created hp hactor
    · exact .edited hp hactor htime
    · exact .activated hp hactor htime
    · exact .deactivated hp hactor htime
  · intro h
    cases h with
    | created hp hactor => exact Or.inl ⟨hp, hactor, rfl, rfl⟩
    | edited hp hactor htime => exact Or.inr (Or.inl ⟨hp, hactor, htime, rfl⟩)
    | activated hp hactor htime => exact Or.inr (Or.inr (Or.inl ⟨hp, hactor, htime, rfl⟩))
    | deactivated hp hactor htime => exact Or.inr (Or.inr (Or.inr ⟨hp, hactor, htime, rfl⟩))

/-- **Inventory.** The queries return what the actor has done to batches. -/
theorem mem_inventoryEvents {table : Table InventoryBatch}
    {a : Activity InventoryBatch InventoryActivityKind} :
    a ∈ actorEvents inventoryActivitySpecs table actor ↔ InventoryEvent table actor a := by
  simp only [mem_actorEvents, inventoryActivitySpecs, List.exists_mem_cons_iff, List.not_mem_nil,
    false_and, exists_false, or_false]
  constructor
  · obtain ⟨t, kind, b⟩ := a
    rintro (⟨hb, hactor, htime, hkind⟩ | ⟨hb, hactor, htime, hkind⟩ | ⟨hb, hactor, htime, hkind⟩)
    all_goals subst hkind
    · have htime : b.createdAt = t := Option.some.inj htime
      subst htime
      exact .added hb hactor
    · exact .edited hb hactor htime
    · exact .closed hb hactor htime
  · intro h
    cases h with
    | added hb hactor => exact Or.inl ⟨hb, hactor, rfl, rfl⟩
    | edited hb hactor htime => exact Or.inr (Or.inl ⟨hb, hactor, htime, rfl⟩)
    | closed hb hactor htime => exact Or.inr (Or.inr ⟨hb, hactor, htime, rfl⟩)

/-- **Customers.** The queries return what the actor has done to customers. -/
theorem mem_customerEvents {table : Table Customer}
    {a : Activity Customer CustomerActivityKind} :
    a ∈ actorEvents customerActivitySpecs table actor ↔ CustomerEvent table actor a := by
  simp only [mem_actorEvents, customerActivitySpecs, List.exists_mem_cons_iff, List.not_mem_nil,
    false_and, exists_false, or_false]
  constructor
  · obtain ⟨t, kind, c⟩ := a
    rintro (⟨hc, hactor, htime, hkind⟩ | ⟨hc, hactor, htime, hkind⟩ |
      ⟨hc, hactor, htime, hkind⟩ | ⟨hc, hactor, htime, hkind⟩)
    all_goals subst hkind
    · have htime : c.createdAt = t := Option.some.inj htime
      subst htime
      exact .created hc hactor
    · exact .edited hc hactor htime
    · exact .activated hc hactor htime
    · exact .deactivated hc hactor htime
  · intro h
    cases h with
    | created hc hactor => exact Or.inl ⟨hc, hactor, rfl, rfl⟩
    | edited hc hactor htime => exact Or.inr (Or.inl ⟨hc, hactor, htime, rfl⟩)
    | activated hc hactor htime => exact Or.inr (Or.inr (Or.inl ⟨hc, hactor, htime, rfl⟩))
    | deactivated hc hactor htime => exact Or.inr (Or.inr (Or.inr ⟨hc, hactor, htime, rfl⟩))

end

/-! ### The account -/

section

variable {α K : Type}

/-- The events of a domain, as events of the account. -/
def accountEventsOf (kind : K → AccountActivityKind) (target : α → ActivityTarget)
    (events : List (Activity α K)) : List AccountActivity :=
  events.map (.ofDomain kind target)

variable {kind : K → AccountActivityKind} {target : α → ActivityTarget} {events : List (Activity α K)}

/-- A feed that is a top stays one among the account's activities. -/
theorem isTop_accountEventsOf {n : ℕ} {feed : List (Activity α K)}
    (h : IsTop Activity.occurredAt n events feed) :
    IsTop Activity.occurredAt n (accountEventsOf kind target events) (feed.map (.ofDomain kind target)) :=
  h.map (fun _ => rfl)

/-- An event keeps its kind and its target in the account. -/
theorem nodup_accountEventsOf (hkind : kind.Injective) (htarget : target.Injective)
    (h : events.Nodup) : (accountEventsOf kind target events).Nodup := by
  refine h.map (fun a b heq => ?_)
  have htime := congrArg Activity.occurredAt heq
  have hk := hkind (congrArg Activity.kind heq)
  have hx := htarget (congrArg Activity.target heq)
  cases a
  cases b
  simp only [Activity.mk.injEq]
  exact ⟨htime, hk, hx⟩

/-- Events of different domains have different targets. -/
theorem accountEventsOf_apart {β L : Type} {kind' : L → AccountActivityKind}
    {target' : β → ActivityTarget} {events' : List (Activity β L)}
    (hne : ∀ x y, target x ≠ target' y) :
    ∀ a ∈ accountEventsOf kind target events, ∀ b ∈ accountEventsOf kind' target' events', a ≠ b := by
  intro a ha b hb hab
  obtain ⟨e, -, rfl⟩ := List.mem_map.mp ha
  obtain ⟨e', -, rfl⟩ := List.mem_map.mp hb
  exact hne e.target e'.target (congrArg Activity.target hab)

end

section

variable (tables : StampedTables) (user : ℕ)

def orderEvents : List AccountActivity :=
  accountEventsOf OrderActivityKind.accountKind .order
    (actorEvents orderActivitySpecs tables.orders user)

def productEvents : List AccountActivity :=
  accountEventsOf ProductActivityKind.accountKind .product
    (actorEvents productActivitySpecs tables.products user)

def inventoryEvents : List AccountActivity :=
  accountEventsOf InventoryActivityKind.accountKind .batch
    (actorEvents inventoryActivitySpecs tables.batches user)

def customerEvents : List AccountActivity :=
  accountEventsOf CustomerActivityKind.accountKind .customer
    (actorEvents customerActivitySpecs tables.customers user)

/-- What the queries of all domains return without a limit. -/
def accountEvents : List AccountActivity :=
  orderEvents tables user ++ productEvents tables user ++ inventoryEvents tables user
    ++ customerEvents tables user

/-- **The account.** The queries of all domains return what the user has done. -/
theorem mem_accountEvents {a : AccountActivity} :
    a ∈ accountEvents tables user ↔ AccountEvent tables user a := by
  simp only [accountEvents, orderEvents, productEvents, inventoryEvents, customerEvents,
    accountEventsOf, List.mem_append, List.mem_map, mem_orderEvents, mem_productEvents,
    mem_inventoryEvents, mem_customerEvents]
  -- Each domain's events keep their kind under the account's name for it.
  constructor
  · rintro (((⟨e, he, rfl⟩ | ⟨e, he, rfl⟩) | ⟨e, he, rfl⟩) | ⟨e, he, rfl⟩)
    · cases he with
      | placed ho hactor htime => exact .orderPlaced (.placed ho hactor htime)
      | packed ho hactor htime => exact .orderPacked (.packed ho hactor htime)
      | delivered ho hactor htime => exact .orderDelivered (.delivered ho hactor htime)
      | cancelled ho hactor htime => exact .orderCancelled (.cancelled ho hactor htime)
      | edited ho hactor htime => exact .orderEdited (.edited ho hactor htime)
    · cases he with
      | created hp hactor => exact .productCreated (.created hp hactor)
      | edited hp hactor htime => exact .productEdited (.edited hp hactor htime)
      | activated hp hactor htime => exact .productActivated (.activated hp hactor htime)
      | deactivated hp hactor htime => exact .productDeactivated (.deactivated hp hactor htime)
    · cases he with
      | added hb hactor => exact .inventoryAdded (.added hb hactor)
      | edited hb hactor htime => exact .inventoryEdited (.edited hb hactor htime)
      | closed hb hactor htime => exact .inventoryClosed (.closed hb hactor htime)
    · cases he with
      | created hc hactor => exact .customerCreated (.created hc hactor)
      | edited hc hactor htime => exact .customerEdited (.edited hc hactor htime)
      | activated hc hactor htime => exact .customerActivated (.activated hc hactor htime)
      | deactivated hc hactor htime => exact .customerDeactivated (.deactivated hc hactor htime)
  · intro h
    cases h with
    | orderPlaced he | orderPacked he | orderDelivered he | orderCancelled he | orderEdited he =>
      exact Or.inl (Or.inl (Or.inl ⟨_, he, rfl⟩))
    | productCreated he | productEdited he | productActivated he | productDeactivated he =>
      exact Or.inl (Or.inl (Or.inr ⟨_, he, rfl⟩))
    | inventoryAdded he | inventoryEdited he | inventoryClosed he =>
      exact Or.inl (Or.inr ⟨_, he, rfl⟩)
    | customerCreated he | customerEdited he | customerActivated he | customerDeactivated he =>
      exact Or.inr ⟨_, he, rfl⟩

/-- The merged feed is a top of the account's events. -/
theorem isTop_mergeAccountActivities (query : QueryOrders) (n : ℕ) :
    IsTop Activity.occurredAt n (accountEvents tables user)
      (mergeAccountActivities query tables user n) := by
  -- four lists are merged, each a top of the events of its domain
  have hdomains : List.Forall₂ (IsTop Activity.occurredAt n)
      [orderEvents tables user, productEvents tables user, inventoryEvents tables user,
        customerEvents tables user]
      [orderActivities query tables user n, productActivities query tables user n,
        inventoryActivities query tables user n, customerActivities query tables user n] :=
    .cons (isTop_accountEventsOf (isTop_listActivityForActor _ _ _ _ _))
      (.cons (isTop_accountEventsOf (isTop_listActivityForActor _ _ _ _ _))
        (.cons (isTop_accountEventsOf (isTop_listActivityForActor _ _ _ _ _))
          (.cons (isTop_accountEventsOf (isTop_listActivityForActor _ _ _ _ _)) .nil)))
  have h := IsTop.merge hdomains (isTop_sortDescending Activity.occurredAt n _)
  simpa [accountEvents, mergeAccountActivities, sortNewestFirst] using h

/-- The stamps of a domain stand for different kinds of events. -/
theorem nodup_orderActivitySpecs : (orderActivitySpecs.map ActivitySpec.kind).Nodup := by decide

/-- Each kind of product activity has one specification. -/
theorem nodup_productActivitySpecs : (productActivitySpecs.map ActivitySpec.kind).Nodup := by decide

/-- Each kind of inventory activity has one specification. -/
theorem nodup_inventoryActivitySpecs : (inventoryActivitySpecs.map ActivitySpec.kind).Nodup := by
  decide

/-- Each kind of customer activity has one specification. -/
theorem nodup_customerActivitySpecs : (customerActivitySpecs.map ActivitySpec.kind).Nodup := by
  decide

/-- No order event is listed twice. -/
theorem nodup_orderEvents : (orderEvents tables user).Nodup :=
  nodup_accountEventsOf (fun k k' h => by cases k <;> cases k' <;> first | rfl | cases h)
    (fun _ _ => ActivityTarget.order.inj) (nodup_actorEvents nodup_orderActivitySpecs _ _)

/-- No product event is listed twice. -/
theorem nodup_productEvents : (productEvents tables user).Nodup :=
  nodup_accountEventsOf (fun k k' h => by cases k <;> cases k' <;> first | rfl | cases h)
    (fun _ _ => ActivityTarget.product.inj) (nodup_actorEvents nodup_productActivitySpecs _ _)

/-- No inventory event is listed twice. -/
theorem nodup_inventoryEvents : (inventoryEvents tables user).Nodup :=
  nodup_accountEventsOf (fun k k' h => by cases k <;> cases k' <;> first | rfl | cases h)
    (fun _ _ => ActivityTarget.batch.inj) (nodup_actorEvents nodup_inventoryActivitySpecs _ _)

/-- No customer event is listed twice. -/
theorem nodup_customerEvents : (customerEvents tables user).Nodup :=
  nodup_accountEventsOf (fun k k' h => by cases k <;> cases k' <;> first | rfl | cases h)
    (fun _ _ => ActivityTarget.customer.inj) (nodup_actorEvents nodup_customerActivitySpecs _ _)

/-- No event of the account is listed twice. -/
theorem nodup_accountEvents : (accountEvents tables user).Nodup := by
  -- Events of two domains differ in their target.
  have hop : ∀ a ∈ orderEvents tables user, ∀ b ∈ productEvents tables user, a ≠ b :=
    accountEventsOf_apart (fun _ _ => nofun)
  have hoi : ∀ a ∈ orderEvents tables user, ∀ b ∈ inventoryEvents tables user, a ≠ b :=
    accountEventsOf_apart (fun _ _ => nofun)
  have hoc : ∀ a ∈ orderEvents tables user, ∀ b ∈ customerEvents tables user, a ≠ b :=
    accountEventsOf_apart (fun _ _ => nofun)
  have hpi : ∀ a ∈ productEvents tables user, ∀ b ∈ inventoryEvents tables user, a ≠ b :=
    accountEventsOf_apart (fun _ _ => nofun)
  have hpc : ∀ a ∈ productEvents tables user, ∀ b ∈ customerEvents tables user, a ≠ b :=
    accountEventsOf_apart (fun _ _ => nofun)
  have hic : ∀ a ∈ inventoryEvents tables user, ∀ b ∈ customerEvents tables user, a ≠ b :=
    accountEventsOf_apart (fun _ _ => nofun)
  unfold accountEvents
  rw [List.nodup_append, List.nodup_append, List.nodup_append]
  simp only [List.forall_mem_append]
  exact ⟨⟨⟨nodup_orderEvents tables user, nodup_productEvents tables user, hop⟩,
    nodup_inventoryEvents tables user, hoi, hpi⟩, nodup_customerEvents tables user, ⟨hoc, hpc⟩, hic⟩

/-- **The two-level merge is exact**, at every limit and so at the limit of the feed. -/
theorem activity_feed_exact (query : QueryOrders) (n : ℕ) :
    ExactFeed n (OrderEvent tables.orders user) (listOrderActivityForActor query tables user n)
      ∧ ExactFeed n (ProductEvent tables.products user)
        (listProductActivityForActor query tables user n)
      ∧ ExactFeed n (InventoryEvent tables.batches user)
        (listInventoryActivityForActor query tables user n)
      ∧ ExactFeed n (CustomerEvent tables.customers user)
        (listCustomerActivityForActor query tables user n)
      ∧ ExactFeed n (AccountEvent tables user) (mergeAccountActivities query tables user n)
      ∧ ExactFeed accountActivityLimit (AccountEvent tables user)
        (listAccountActivities query tables user) := by
  -- The account's feed is one definition at two limits.
  have haccount : ∀ n, ExactFeed n (AccountEvent tables user)
      (mergeAccountActivities query tables user n) :=
    fun n => .of_isTop (isTop_mergeAccountActivities tables user query n)
      ⟨fun _ => mem_accountEvents tables user, nodup_accountEvents tables user⟩
  refine ⟨?_, ?_, ?_, ?_, haccount n, haccount _⟩
  · exact .of_isTop (isTop_listActivityForActor _ _ _ _ _)
      ⟨fun _ => mem_orderEvents, nodup_actorEvents nodup_orderActivitySpecs _ _⟩
  · exact .of_isTop (isTop_listActivityForActor _ _ _ _ _)
      ⟨fun _ => mem_productEvents, nodup_actorEvents nodup_productActivitySpecs _ _⟩
  · exact .of_isTop (isTop_listActivityForActor _ _ _ _ _)
      ⟨fun _ => mem_inventoryEvents, nodup_actorEvents nodup_inventoryActivitySpecs _ _⟩
  · exact .of_isTop (isTop_listActivityForActor _ _ _ _ _)
      ⟨fun _ => mem_customerEvents, nodup_actorEvents nodup_customerActivitySpecs _ _⟩

end

/-! ### A day to compute with -/

/-- A database that keeps rows with equal values as they are stored. -/
def NewestFirst.stored (α : Type) : NewestFirst α where
  arrange field := sortDescending field
  perm field := perm_sortDescending field
  descending field := descending_sortDescending field

def QueryOrders.stored : QueryOrders where
  orders _ := .stored Order
  products _ := .stored ProductRow
  batches _ := .stored InventoryBatch
  customers _ := .stored Customer

namespace Shop

/-- An order that was placed by the first user, and packed at six. -/
def stampedOrder (pk : ℕ) (placed : Time) (packer : ℕ) : Order where
  pk := pk
  channel := .business
  currency := .eur
  customerId := some 7
  status := .packed
  createdAt := 0
  editedAt := none
  editedBy := none
  placedAt := some placed
  placedBy := some 1
  packedAt := some 6
  packedBy := some packer
  deliveredAt := none
  deliveredBy := none
  cancelledAt := none
  cancelledBy := none
  cancelReason := ""
  cancelNote := ""

/-- A batch that the first user has added, also at six. -/
def stampedBatch : InventoryBatch where
  pk := 1
  batchId := "B"
  productId := 1
  quantity := 10
  bestBefore := 30
  location := "Shelf"
  status := .active
  createdAt := 6
  createdBy := some 1
  editedAt := none
  editedBy := none
  closedAt := none
  closedBy := none

/-- Two orders and a batch: the first user did something at three, at five, and twice at six. -/
def stamped : StampedTables where
  orders := ⟨[stampedOrder 1 3 1, stampedOrder 2 5 2], 3, by decide, by decide⟩
  products := .empty
  batches := ⟨[stampedBatch], 2, by decide, by decide⟩
  customers := .empty

end Shop

/-- The newest three events of the first user, of two domains. -/
theorem activity_feed_exact_stamped :
    ExactFeed 3 (AccountEvent Shop.stamped 1)
        (mergeAccountActivities .stored Shop.stamped 1 3)
      ∧ (mergeAccountActivities .stored Shop.stamped 1 3).map Activity.occurredAt = [6, 6, 5]
      ∧ AccountEvent Shop.stamped 1 ⟨3, .orderPlaced, .order (Shop.stampedOrder 1 3 1)⟩ := by
  have hfeed := (activity_feed_exact Shop.stamped 1 .stored 3).2.2.2.2.1
  have hmem : Shop.stampedOrder 1 3 1 ∈ Shop.stamped.orders.rows := List.mem_cons_self
  have hevents : (accountEvents Shop.stamped 1).map Activity.occurredAt = [3, 5, 6, 6] := by
    decide +kernel
  have hsorted : (sortDescending id [3, 5, 6, 6] : List Time).take 3 = [6, 6, 5] := by
    simp [sortDescending, List.mergeSort, List.MergeSort.Internal.splitInTwo]
  refine ⟨hfeed, ?_, .orderPlaced (.placed hmem rfl rfl)⟩
  rw [hfeed.timestamps _ ⟨fun _ => mem_accountEvents _ _, nodup_accountEvents _ _⟩, hevents,
    hsorted]

end SwedeSweets
