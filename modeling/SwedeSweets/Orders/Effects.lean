import SwedeSweets.Orders.Services

namespace SwedeSweets

open Relational Fallible

/-!
# What the shared order services write

Each lifecycle service returns iff its guard and its preparation let it, and then saves the
order row with its new status and stamps over what the preparation left.
-/

/-- A locked order is on file and passes its guard. -/
theorem lockedOrder_eq_ok {α : Type} {db : Db} {k : ℕ} {guard : Order → Result Unit}
    {f : Order → Result α} {a : α} :
    lockedOrder db k guard f = .ok a ↔
      ∃ o ∈ db.orders, o.pk = k ∧ guard o = .ok () ∧ f o = .ok a := by
  unfold lockedOrder
  simp only [bind_eq_ok, Db.getOrder_eq_ok, and_assoc]
  constructor
  · rintro ⟨o, ho, hk, ⟨⟩, hg, hf⟩
    exact ⟨o, ho, hk, hg, hf⟩
  · rintro ⟨o, ho, hk, hg, hf⟩
    exact ⟨o, ho, hk, (), hg, hf⟩

/-- The status asked for is the status the order has. -/
theorem requireStatus_eq_ok {status : OrderStatus} {message : String} {o : Order} {u : Unit} :
    requireStatus status message o = .ok u ↔ o.status = status := by
  simp [requireStatus]

/-- The order row after it was placed. -/
def Order.asPlaced (now : Time) (user : Option ℕ) (o : Order) : Order :=
  { o with status := .placed, placedAt := some now, placedBy := user }

@[simp] theorem Order.asPlaced_pk (now : Time) (user : Option ℕ) (o : Order) :
    (o.asPlaced now user).pk = o.pk := rfl

@[simp] theorem Order.asPlaced_status (now : Time) (user : Option ℕ) (o : Order) :
    (o.asPlaced now user).status = .placed := rfl

/-- Placing runs the preparation on a DRAFT order and saves it as PLACED. -/
theorem placeOrder_eq_ok {rt : Runtime} {db db' : Db} {k : ℕ} {preparation : Preparation}
    {user : Option ℕ} :
    placeOrder rt db k preparation user = .ok db' ↔
      ∃ o ∈ db.orders, o.pk = k ∧ o.status = .draft ∧ ∃ db₁, preparation db o = .ok db₁ ∧
        db' = db₁.saveOrder (o.asPlaced rt.now user) := by
  unfold placeOrder requireDraftForPlacement
  simp only [lockedOrder_eq_ok, requireStatus_eq_ok, bind_eq_ok, pure_eq_ok, Order.markAsPlaced,
    Order.transitionTo_eq_ok]
  constructor
  · rintro ⟨o, ho, hk, hst, db₁, hprep, o', ⟨o'', ⟨-, rfl⟩, rfl⟩, rfl⟩
    exact ⟨o, ho, hk, hst, db₁, hprep, rfl⟩
  · rintro ⟨o, ho, hk, hst, db₁, hprep, rfl⟩
    exact ⟨o, ho, hk, hst, db₁, hprep, _, ⟨_, ⟨Or.inr (by simp [hst, Order.allowedTransitions]),
      rfl⟩, rfl⟩, rfl⟩

/-- Packing runs the preparation on a PLACED order and saves it as PACKED. -/
theorem packOrder_eq_ok {rt : Runtime} {db db' : Db} {k : ℕ} {preparation : Preparation}
    {user : Option ℕ} :
    packOrder rt db k preparation user = .ok db' ↔
      ∃ o ∈ db.orders, o.pk = k ∧ o.status = .placed ∧ ∃ db₁, preparation db o = .ok db₁ ∧
        db' = db₁.saveOrder
          { o with status := .packed, packedAt := some rt.now, packedBy := user } := by
  unfold packOrder requirePlacedForPacking
  simp only [lockedOrder_eq_ok, requireStatus_eq_ok, bind_eq_ok, pure_eq_ok, Order.markAsPacked,
    Order.transitionTo_eq_ok]
  constructor
  · rintro ⟨o, ho, hk, hst, db₁, hprep, o', ⟨o'', ⟨-, rfl⟩, rfl⟩, rfl⟩
    exact ⟨o, ho, hk, hst, db₁, hprep, rfl⟩
  · rintro ⟨o, ho, hk, hst, db₁, hprep, rfl⟩
    exact ⟨o, ho, hk, hst, db₁, hprep, _, ⟨_, ⟨Or.inr (by simp [hst, Order.allowedTransitions]),
      rfl⟩, rfl⟩, rfl⟩

/-- Cancelling runs the preparation on a DRAFT or PLACED order and saves it as CANCELLED. -/
theorem cancelOrder_eq_ok {rt : Runtime} {db db' : Db} {k : ℕ} {preparation : Preparation}
    {user : Option ℕ} {reason note : String} :
    cancelOrder rt db k preparation user reason note = .ok db' ↔
      ∃ o ∈ db.orders, o.pk = k ∧ (o.status = .draft ∨ o.status = .placed) ∧
        ∃ db₁, preparation db o = .ok db₁ ∧
          FitsColumn Order.maxCancelReasonLength reason ∧ '\x00' ∉ (Text.strip note).toList ∧
          db' = db₁.saveOrder
            { o with
              status := .cancelled
              cancelledAt := some rt.now
              cancelledBy := user
              cancelReason := reason
              cancelNote := Text.strip note } := by
  unfold cancelOrder requireCancellable
  simp only [lockedOrder_eq_ok, require_eq_ok, bind_eq_ok, pure_eq_ok, Order.cancel,
    Order.transitionTo_eq_ok, requireFits_eq_ok, requireText_eq_ok, exists_const]
  simp only [Order.canBeCancelled]
  -- Both statuses that can be cancelled allow the transition.
  constructor
  · rintro ⟨o, ho, hk, hst, db₁, hprep, o', ⟨o'', ⟨-, rfl⟩, hreason, hnote, rfl⟩, rfl⟩
    exact ⟨o, ho, hk, hst, db₁, hprep, hreason, hnote, rfl⟩
  · rintro ⟨o, ho, hk, hst, db₁, hprep, hreason, hnote, rfl⟩
    refine ⟨o, ho, hk, hst, db₁, hprep, _, ⟨_, ⟨Or.inr ?_, rfl⟩, hreason, hnote, rfl⟩, rfl⟩
    rcases hst with hst | hst <;> simp [hst, Order.allowedTransitions]

/-- Delivering saves a PACKED or DELIVERED order as DELIVERED; there is no other guard. -/
theorem deliverOrder_eq_ok {rt : Runtime} {db db' : Db} {k : ℕ} {user : Option ℕ} :
    deliverOrder rt db k user = .ok db' ↔
      ∃ o ∈ db.orders, o.pk = k ∧ (o.status = .packed ∨ o.status = .delivered) ∧
        db' = db.saveOrder
          { o with status := .delivered, deliveredAt := some rt.now, deliveredBy := user } := by
  unfold deliverOrder
  simp only [lockedOrder_eq_ok, bind_eq_ok, pure_eq_ok, Order.markAsDelivered,
    Order.transitionTo_eq_ok, true_and]
  constructor
  · rintro ⟨o, ho, hk, o', ⟨o'', ⟨hst, rfl⟩, rfl⟩, rfl⟩
    refine ⟨o, ho, hk, ?_, rfl⟩
    cases hs : o.status <;> simp_all [Order.allowedTransitions]
  · rintro ⟨o, ho, hk, hst, rfl⟩
    refine ⟨o, ho, hk, _, ⟨_, ⟨?_, rfl⟩, rfl⟩, rfl⟩
    rcases hst with hst | hst <;> simp [hst, Order.allowedTransitions]

/-- Editing a PLACED order: clear its reservations, replace its lines, prepare it anew. -/
theorem updatePlacedOrder_eq_ok {rt : Runtime} {db db' : Db} {k : ℕ}
    {lines : List ResolvedOrderLine} {before preparation : Preparation} {user : Option ℕ}
    (h : updatePlacedOrder rt db k lines before preparation user = .ok db') :
    ∃ o ∈ db.orders, o.pk = k ∧ o.status = .placed ∧ ∃ incoming existing,
      incomingByOfferId o lines = .ok incoming ∧
      existingByOfferId (db.orderLines o.pk) = .ok existing ∧
      ∃ db₁ db₂ db₃, before db o = .ok db₁ ∧ replaceLines db₁ o incoming existing = .ok db₂ ∧
        preparation db₂ o = .ok db₃ ∧ db' = db₃.saveOrder (o.markAsEdited rt user) := by
  unfold updatePlacedOrder requirePlacedForEdit at h
  simp only [lockedOrder_eq_ok, requireStatus_eq_ok, bind_eq_ok, require_eq_ok, exists_const,
    pure_eq_ok] at h
  obtain ⟨o, ho, hk, hst, -, incoming, hin, existing, hex, db₁, h₁, db₂, h₂, db₃, h₃, rfl⟩ := h
  exact ⟨o, ho, hk, hst, incoming, existing, hin, hex, db₁, db₂, db₃, h₁, h₂, h₃, rfl⟩

/-! ### Lines -/

/-- The row of a resolved line. -/
structure NewOrderLine.Of (order : Order) (line : ResolvedOrderLine) (x : NewOrderLine) : Prop where
  order : x.orderId = order.pk
  product : x.productId = line.product.pk
  offer : x.commercialOfferId = line.commercialOffer.pk
  quantity : x.quantityInUnits = line.quantityInUnits.toNat
  price : x.unitPriceSnapshot = line.unitPriceSnapshot

/-- A quantity that the table admits on an order line. -/
def LineQuantity (q : ℤ) : Prop := 0 < q ∧ q < 10 ^ quantityDigits

/-- A line that the table admits. -/
structure ResolvedOrderLine.Storable (line : ResolvedOrderLine) : Prop where
  quantity : LineQuantity line.quantityInUnits
  price : ∀ c ∈ line.unitPriceSnapshot, 0 < c

/-- A positive quantity passes the column iff it is below its bound. -/
theorem requireQuantity_eq_ok {q : ℤ} (h : 0 < q.toNat) {u : Unit} :
    requireNumeric quantityDigits q = .ok u ↔ LineQuantity q := by
  unfold LineQuantity quantityDigits
  rw [requireNumeric_eq_ok]
  omega

/-- What is inserted for a line, and that the table admits the line. -/
theorem newOrderLine_eq_ok {order : Order} {line : ResolvedOrderLine} {x : NewOrderLine}
    (h : newOrderLine order line = .ok x) : x.Of order line ∧ line.Storable := by
  unfold newOrderLine at h
  simp only [bind_eq_ok] at h
  obtain ⟨u, hcolumn, h⟩ := h
  by_cases hq : 0 < line.quantityInUnits.toNat
  · by_cases hp : ∀ c ∈ line.unitPriceSnapshot, 0 < c
    · rw [dif_pos hq, dif_pos hp, pure_eq_ok] at h
      subst h
      exact ⟨⟨rfl, rfl, rfl, rfl, rfl⟩, (requireQuantity_eq_ok hq).mp hcolumn, hp⟩
    · rw [dif_pos hq, dif_neg hp] at h
      cases h
  · rw [dif_neg hq] at h
    cases h

/-- A line that was built carries the resolved line's data. -/
theorem newOrderLine_of {order : Order} {line : ResolvedOrderLine} {x : NewOrderLine}
    (h : newOrderLine order line = .ok x) : x.Of order line :=
  (newOrderLine_eq_ok h).1

/-- A line that the table admits gets its row. -/
theorem exists_newOrderLine (order : Order) {line : ResolvedOrderLine} (h : line.Storable) :
    ∃ x, newOrderLine order line = .ok x := by
  have hq : 0 < line.quantityInUnits.toNat := Int.lt_toNat.mpr h.quantity.1
  unfold newOrderLine
  rw [(requireQuantity_eq_ok (u := ()) hq).mpr h.quantity, dif_pos hq, dif_pos h.price]
  exact ⟨_, rfl⟩

/-- Resizing changes the quantity, to one that the table admits, and nothing else. -/
theorem OrderLine.resize_eq_ok {l l' : OrderLine} {q : ℤ} :
    l.resize q = .ok l' ↔
      ∃ h : LineQuantity q, l' = { l with
        quantityInUnits := q.toNat, quantity_pos := Int.lt_toNat.mpr h.1 } := by
  unfold OrderLine.resize
  by_cases hq : 0 < q.toNat
  · simp only [bind_eq_ok, requireQuantity_eq_ok hq, exists_const, dif_pos hq, pure_eq_ok]
    exact ⟨fun h => ⟨h.1, h.2.symm⟩, fun h => ⟨h.fst, h.snd.symm⟩⟩
  · simp only [bind_eq_ok, dif_neg hq, throw_eq_ok, and_false, exists_false, false_iff]
    rintro ⟨h, -⟩
    exact hq (Int.lt_toNat.mpr h.1)

/-! ### Buyers -/

/-- The snapshot columns of an order hold the buyer's data. -/
structure BuyerInput.FitsColumns (buyer : BuyerInput) : Prop where
  name : FitsColumn maxCustomerNameLength buyer.name
  email : FitsColumn maxBuyerEmailLength buyer.email
  phoneNumber : FitsColumn maxCustomerPhoneLength buyer.phoneNumber
  country : FitsColumn maxCustomerCountryLength buyer.country
  postalCode : FitsColumn maxBuyerPostalCodeLength buyer.postalCode
  city : FitsColumn maxCustomerCityLength buyer.city
  addressLine : FitsColumn maxCustomerAddressLineLength buyer.addressLine

/-- A buyer can be saved on an order iff the columns hold the data. -/
theorem snapshotBuyer_eq_ok {buyer : BuyerInput} {u : Unit} :
    snapshotBuyer buyer = .ok u ↔ buyer.FitsColumns := by
  unfold snapshotBuyer
  simp only [bind_eq_ok, requireFits_eq_ok, exists_const]
  constructor
  · rintro ⟨hname, hemail, hphone, hcountry, hpostal, hcity, haddress⟩
    exact ⟨hname, hemail, hphone, hcountry, hpostal, hcity, haddress⟩
  · rintro ⟨hname, hemail, hphone, hcountry, hpostal, hcity, haddress⟩
    exact ⟨hname, hemail, hphone, hcountry, hpostal, hcity, haddress⟩

/-! ### Finding and creating lines -/

/-- A line is found among its order's own. -/
theorem findOrderLine_eq_ok {db : Db} {o : Order} {k : ℕ} {l : OrderLine}
    (h : findOrderLine db o k = .ok l) : l ∈ db.orderLines o.pk ∧ l.pk = k := by
  unfold findOrderLine at h
  rw [orRaise_eq_ok] at h
  exact ⟨List.mem_of_find?_eq_some h, by simpa using List.find?_some h⟩

/-- Creating lines inserts rows of the order. -/
theorem createOrderLines_eq_ok {db db' : Db} {order : Order} {lines : List ResolvedOrderLine}
    (h : createOrderLines db order lines = .ok db') :
    ∃ xs : List NewOrderLine, (∀ x ∈ xs, x.orderId = order.pk)
      ∧ db' = { db with lines := db.lines.insertAll (xs.map NewOrderLine.row) } := by
  unfold createOrderLines at h
  simp only [bind_eq_ok, pure_eq_ok] at h
  obtain ⟨-, -, xs, hxs, rfl⟩ := h
  refine ⟨xs, fun x hx => ?_, rfl⟩
  obtain ⟨line, -, hline⟩ := exists_of_mem_mapM hxs hx
  exact (newOrderLine_of hline).order

end SwedeSweets
