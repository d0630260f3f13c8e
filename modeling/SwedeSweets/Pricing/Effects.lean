import SwedeSweets.Pricing.Services

namespace SwedeSweets

open Relational Fallible

/-!
# What the pricing services write

* `Decimal.Payable` — the numbers the table takes as a price; `priceAmount_eq_ok` says that these
  are the ones `setPriceAmount` accepts, and that it stores them to the cent.
* `CommercialPrice.configured` — an offer brought to an entry of a pricing form: the amounts are
  those of the entry and no others (`applyChannelPricing_eq_ok`).
-/

/-! ### Amounts -/

namespace Decimal

/-- The number in cents, rounded as the column rounds it. -/
def cents (d : Decimal) : Cents := ⌊100 * d.value + 1 / 2⌋.toNat

/-- A price the table takes: positive, with two decimals, and below a hundred million. -/
structure Payable (d : Decimal) : Prop where
  pos : 0 < d.value
  bound : d.value < 10 ^ 8
  places : d.twoPlaces = true

instance (d : Decimal) : Decidable d.Payable :=
  decidable_of_iff (0 < d.value ∧ d.value < 10 ^ 8 ∧ d.twoPlaces = true)
    ⟨fun ⟨hpos, hbound, hplaces⟩ => ⟨hpos, hbound, hplaces⟩, fun h => ⟨h.pos, h.bound, h.places⟩⟩

variable {d : Decimal}

/-- With two decimals at most, the number is a whole number of cents. -/
theorem exists_cents (h : d.twoPlaces = true) : ∃ n : ℤ, 100 * d.value = n := by
  have hexp : 0 ≤ d.exponent + 2 := by
    simp only [twoPlaces, decide_eq_true_eq] at h
    omega
  refine ⟨d.coefficient * 10 ^ (d.exponent + 2).toNat, ?_⟩
  have hpow : (10 : ℚ) ^ (d.exponent + 2).toNat = 10 ^ d.exponent * 100 := by
    rw [← zpow_natCast, Int.toNat_of_nonneg hexp, zpow_add₀ (by norm_num)]
    norm_num
  unfold value
  push_cast
  rw [hpow]
  ring

/-- A whole number of cents is not rounded. -/
theorem floor_eq {n : ℤ} (h : 100 * d.value = n) : ⌊100 * d.value + 1 / 2⌋ = n := by
  rw [h, Int.floor_intCast_add]
  norm_num

/-- **To the cent.** A payable number is stored exactly. -/
theorem Payable.cents_eq (h : d.Payable) : (d.cents : ℚ) = 100 * d.value := by
  obtain ⟨n, hn⟩ := exists_cents h.places
  have hpos : 0 ≤ n := by
    have hpos := h.pos
    have : (0 : ℚ) ≤ n := by rw [← hn]; positivity
    exact_mod_cast this
  unfold cents
  rw [floor_eq hn, hn]
  exact_mod_cast Int.toNat_of_nonneg hpos

/-- A payable number is at least a cent. -/
theorem Payable.cents_pos (h : d.Payable) : 0 < d.cents := by
  have hpos := h.pos
  have : (0 : ℚ) < d.cents := by rw [h.cents_eq]; positivity
  exact_mod_cast this

/-- A payable number has at most ten digits. -/
theorem Payable.cents_lt (h : d.Payable) : d.cents < 10 ^ 10 := by
  have hbound := h.bound
  have : (d.cents : ℚ) < 10 ^ 10 := by rw [h.cents_eq]; linarith
  exact_mod_cast this

/-- The column takes a payable number. -/
theorem Payable.column (h : d.Payable) : d.column = .ok d.cents := by
  obtain ⟨n, hn⟩ := exists_cents h.places
  have hbound : (n : ℚ) < 10 ^ 10 := by
    have hbound := h.bound
    rw [← hn]
    linarith
  have hfloor : ⌊100 * d.value + 1 / 2⌋ < 10 ^ 10 := by
    rw [floor_eq hn]
    exact_mod_cast hbound
  unfold Decimal.column
  rw [require_of hfloor]
  rfl

/-- A number with two decimals that the column takes and that is positive is payable. -/
theorem payable_of_column {c : Cents} (hpos : 0 < d.value) (hplaces : d.twoPlaces = true)
    (h : d.column = .ok c) : d.Payable ∧ c = d.cents := by
  simp only [Decimal.column, bind_eq_ok, require_eq_ok, pure_eq_ok] at h
  obtain ⟨_, hlt, rfl⟩ := h
  obtain ⟨n, hn⟩ := exists_cents hplaces
  rw [floor_eq hn] at hlt
  have hbound : (n : ℚ) < 10 ^ 10 := by exact_mod_cast hlt
  rw [← hn] at hbound
  exact ⟨⟨hpos, by linarith, hplaces⟩, rfl⟩

end Decimal

/-- The validation of the amounts: both are positive and the price is at most the original one. -/
theorem validateAmounts_eq_ok {price : Decimal} {originalPrice : Option Decimal} {u : Unit} :
    validateAmounts price originalPrice = .ok u ↔ 0 < price.value
      ∧ (∀ original ∈ originalPrice, 0 < original.value)
      ∧ ∀ original ∈ originalPrice, price.value ≤ original.value := by
  simp [validateAmounts]

/-- **Amounts.** The services take exactly the payable prices, with an original price that is
    payable and not below; both are stored to the cent. -/
theorem priceAmount_eq_ok {currency : Currency} {price : Decimal} {originalPrice : Option Decimal}
    {a : PriceAmount} :
    priceAmount currency price originalPrice = .ok a ↔ price.Payable
      ∧ (∀ original ∈ originalPrice, original.Payable ∧ price.value ≤ original.value)
      ∧ a.currency = currency ∧ a.price = price.cents
      ∧ a.originalPrice = originalPrice.map Decimal.cents := by
  unfold priceAmount
  simp only [bind_eq_ok, validateAmounts_eq_ok]
  -- From left to right the column's own checks give the bound and the two decimals.
  constructor
  · rintro ⟨_, ⟨hpos, horig, hle⟩, cents, hcents, originals, horiginals, h⟩
    by_cases hc : 0 < cents
    · simp only [dif_pos hc, bind_eq_ok, require_eq_ok, pure_eq_ok] at h
      obtain ⟨_, ⟨hplaces, hplaces'⟩, rfl⟩ := h
      obtain ⟨hpay, rfl⟩ := Decimal.payable_of_column hpos hplaces hcents
      cases originalPrice with
      | none =>
        simp only [Option.mapM_none, pure_eq_ok] at horiginals
        subst horiginals
        exact ⟨hpay, by simp, rfl, rfl, rfl⟩
      | some original =>
        obtain ⟨c, hcol, rfl⟩ := map_eq_ok.mp horiginals
        obtain ⟨hpay', rfl⟩ :=
          Decimal.payable_of_column (horig original rfl) (hplaces' original rfl) hcol
        refine ⟨hpay, ?_, rfl, rfl, rfl⟩
        rintro x ⟨⟩
        exact ⟨hpay', hle original rfl⟩
    · simp [dif_neg hc] at h
  · rintro ⟨hpay, horig, hcur, hprice, horiginal⟩
    refine ⟨(), ⟨hpay.pos, fun x hx => (horig x hx).1.pos, fun x hx => (horig x hx).2⟩,
      price.cents, hpay.column, originalPrice.map Decimal.cents, ?_, ?_⟩
    · cases originalPrice with
      | none => rfl
      | some original =>
        exact map_eq_ok.mpr ⟨_, (horig original rfl).1.column, rfl⟩
    · simp only [dif_pos hpay.cents_pos, bind_eq_ok, require_eq_ok, pure_eq_ok]
      refine ⟨(), ⟨hpay.places, fun x hx => (horig x hx).1.places⟩, ?_⟩
      obtain ⟨currency', price', originalPrice', hpos⟩ := a
      simp only at hcur hprice horiginal
      subst hcur hprice horiginal
      rfl

/-! ### The amounts of an offer -/

/-- The amount a form stores for a currency; what is not payable is not stored. -/
def formAmount (currency : Currency) (d : Option Decimal) : Option PriceAmount :=
  d.bind (fun d => (priceAmount currency d none).toOption)

/-- A form stores an amount exactly when it was entered and is payable. -/
theorem formAmount_eq_some {currency : Currency} {d : Option Decimal} {a : PriceAmount} :
    formAmount currency d = some a ↔ ∃ x ∈ d, x.Payable ∧ a.currency = currency
      ∧ a.price = x.cents ∧ a.originalPrice = none := by
  unfold formAmount
  rw [Option.bind_eq_some_iff]
  refine exists_congr (fun x => and_congr_right (fun _ => ?_))
  have htoOption : (priceAmount currency x none).toOption = some a
      ↔ priceAmount currency x none = .ok a := by
    cases priceAmount currency x none <;> simp [Except.toOption]
  rw [htoOption, priceAmount_eq_ok]
  simp

namespace ChannelPricing

/-- The amounts of an entry, in the order they are read. -/
def amounts (entry : ChannelPricing) : List PriceAmount :=
  (formAmount .eur entry.eur).toList ++ (formAmount .sek entry.sek).toList

/-- Every amount that was entered is a price. -/
def Payable (entry : ChannelPricing) : Prop :=
  (∀ d ∈ entry.eur, d.Payable) ∧ ∀ d ∈ entry.sek, d.Payable

instance (entry : ChannelPricing) : Decidable entry.Payable :=
  inferInstanceAs (Decidable (_ ∧ _))

end ChannelPricing

namespace CommercialPrice

variable {o : CommercialPrice}

/-- The offer with what a form says about a currency. -/
def entered (o : CommercialPrice) (currency : Currency) (d : Option Decimal) : CommercialPrice :=
  match formAmount currency d with
  | none => o.withoutAmount currency
  | some a => o.withAmount a

/-- The offer brought to an entry of a form. -/
def configured (o : CommercialPrice) (entry : ChannelPricing) : CommercialPrice :=
  { o with amounts := entry.amounts, enabled := entry.enabled }

/-- Entering an amount keeps the offer's key. -/
@[simp] theorem entered_pk (o : CommercialPrice) (currency : Currency) (d : Option Decimal) :
    (o.entered currency d).pk = o.pk := by
  unfold entered
  cases formAmount currency d <;> rfl

/-- Entering an amount changes the amounts only. -/
theorem entered_eq (o : CommercialPrice) (currency : Currency) (d : Option Decimal) :
    o.entered currency d = { o with amounts := (o.entered currency d).amounts } := by
  unfold entered
  cases formAmount currency d <;> rfl

/-- EUR is entered before the amounts in SEK. -/
theorem entered_eur (o : CommercialPrice) (d : Option Decimal) :
    (o.entered .eur d).amounts
      = (formAmount .eur d).toList ++ o.amounts.filter (fun a => a.currency = .sek) := by
  unfold entered
  -- No currency ranks before EUR.
  cases h : formAmount .eur d with
  | none =>
    show o.amounts.filter _ = _
    refine List.filter_congr (fun a _ => ?_)
    cases a.currency <;> rfl
  | some a =>
    obtain ⟨_, _, _, ha, _⟩ := formAmount_eq_some.mp h
    show o.amounts.filter _ ++ a :: o.amounts.filter _ = [a] ++ o.amounts.filter _
    rw [ha]
    have hlow : o.amounts.filter (fun x => x.currency.rank < Currency.eur.rank) = [] :=
      List.filter_eq_nil_iff.mpr (fun x _ => by cases x.currency <;> simp [Currency.rank])
    have hhigh : o.amounts.filter (fun x => Currency.eur.rank < x.currency.rank)
        = o.amounts.filter (fun x => x.currency = .sek) :=
      List.filter_congr (fun x _ => by cases x.currency <;> rfl)
    rw [hlow, hhigh]
    rfl

/-- SEK is entered after the amounts in EUR. -/
theorem entered_sek (o : CommercialPrice) (d : Option Decimal) :
    (o.entered .sek d).amounts
      = o.amounts.filter (fun a => a.currency = .eur) ++ (formAmount .sek d).toList := by
  unfold entered
  -- No currency ranks after SEK.
  cases h : formAmount .sek d with
  | none =>
    show o.amounts.filter _ = _ ++ []
    rw [List.append_nil]
    refine List.filter_congr (fun a _ => ?_)
    cases a.currency <;> rfl
  | some a =>
    obtain ⟨_, _, _, ha, _⟩ := formAmount_eq_some.mp h
    show o.amounts.filter _ ++ a :: o.amounts.filter _ = o.amounts.filter _ ++ [a]
    rw [ha]
    have hlow : o.amounts.filter (fun x => x.currency.rank < Currency.sek.rank)
        = o.amounts.filter (fun x => x.currency = .eur) :=
      List.filter_congr (fun x _ => by cases x.currency <;> rfl)
    have hhigh : o.amounts.filter (fun x => Currency.sek.rank < x.currency.rank) = [] :=
      List.filter_eq_nil_iff.mpr (fun x _ => by cases x.currency <;> simp [Currency.rank])
    rw [hlow, hhigh]

/-- Entering both currencies leaves the amounts of the form and no others. -/
theorem entered_entered (o : CommercialPrice) (entry : ChannelPricing) :
    (o.entered .eur entry.eur).entered .sek entry.sek = { o with amounts := entry.amounts } := by
  have heur : (formAmount .eur entry.eur).toList.filter (fun a => a.currency = .eur)
      = (formAmount .eur entry.eur).toList := by
    refine List.filter_eq_self.mpr (fun a ha => ?_)
    obtain ⟨_, _, _, hcur, _⟩ := formAmount_eq_some.mp (Option.mem_toList.mp ha)
    simp [hcur]
  have hsek : (o.amounts.filter (fun a => a.currency = .sek)).filter (fun a => a.currency = .eur)
      = [] := by
    refine List.filter_eq_nil_iff.mpr (fun a ha => ?_)
    rw [List.mem_filter, decide_eq_true_eq] at ha
    simp [ha.2]
  rw [entered_eq, entered_sek, entered_eur, List.filter_append, heur, hsek, List.append_nil,
    entered_eq o]
  rfl

@[simp] theorem configured_pk (o : CommercialPrice) (entry : ChannelPricing) :
    (o.configured entry).pk = o.pk := rfl

@[simp] theorem configured_configured (o : CommercialPrice) (entry : ChannelPricing) :
    (o.configured entry).configured entry = o.configured entry := rfl

@[simp] theorem isFor_configured (s : Scope) (o : CommercialPrice) (entry : ChannelPricing) :
    (o.configured entry).isFor s = o.isFor s := rfl

/-- What is read back for a currency. -/
theorem findAmount_configured (o : CommercialPrice) (entry : ChannelPricing) (currency : Currency) :
    (o.configured entry).findAmount currency = formAmount currency (entry.amount currency) := by
  have hfind : ∀ (c c' : Currency) (d : Option Decimal),
      (formAmount c d).toList.find? (fun a => a.currency = c')
        = if c = c' then formAmount c d else none := by
    intro c c' d
    cases h : formAmount c d with
    | none => simp
    | some a =>
      obtain ⟨_, _, _, ha, _⟩ := formAmount_eq_some.mp h
      simp [ha, List.find?_singleton]
  show entry.amounts.find? _ = _
  unfold ChannelPricing.amounts
  rw [List.find?_append, hfind, hfind]
  cases currency <;> simp [ChannelPricing.amount]

end CommercialPrice

/-! ### Bringing one offer to an entry -/

def Db.putCommercialPrice (db : Db) (o : CommercialPrice) : Db :=
  { db with commercialPrices := db.commercialPrices.put o }

section

variable {db db' : Db} {o : CommercialPrice}

/-- The last write of an offer stays. -/
theorem Db.putCommercialPrice_putCommercialPrice (db : Db) {o o' : CommercialPrice}
    (h : o'.pk = o.pk) :
    (db.putCommercialPrice o).putCommercialPrice o' = db.putCommercialPrice o' := by
  unfold putCommercialPrice
  rw [Table.put_put _ h]

/-- Writing an offer replaces the row of its key. -/
theorem Db.mem_putCommercialPrice {x o' : CommercialPrice} (ho : o ∈ db.commercialPrices)
    (hpk : o'.pk = o.pk) : x ∈ (db.putCommercialPrice o').commercialPrices ↔
      x = o' ∨ (x ∈ db.commercialPrices ∧ x.pk ≠ o'.pk) :=
  Table.mem_put ⟨o, ho, hpk.symm⟩

/-- An edit reads the offer by its key and writes what it made of it. -/
theorem editCommercialPrice_eq_ok {pk : ℕ} {edit : CommercialPrice → Result CommercialPrice} :
    editCommercialPrice db pk edit = .ok db' ↔ ∃ o ∈ db.commercialPrices, o.pk = pk
      ∧ ∃ o', edit o = .ok o' ∧ db' = db.putCommercialPrice o' := by
  simp only [editCommercialPrice, bind_eq_ok, Db.getCommercialPrice_eq_ok, pure_eq_ok, and_assoc]
  refine exists_congr (fun o => and_congr_right (fun _ => and_congr_right (fun _ => ?_)))
  exact exists_congr (fun o' => and_congr_right (fun _ => eq_comm))

/-- The offer that is edited is the row of its key. -/
theorem editCommercialPrice_of (ho : o ∈ db.commercialPrices)
    {edit : CommercialPrice → Result CommercialPrice} :
    editCommercialPrice db o.pk edit = .ok db'
      ↔ ∃ o', edit o = .ok o' ∧ db' = db.putCommercialPrice o' := by
  rw [editCommercialPrice_eq_ok]
  constructor
  · rintro ⟨x, hx, hpk, h⟩
    rwa [← Table.eq_of_pk_eq hx ho hpk]
  · intro h
    exact ⟨o, ho, rfl, h⟩

/-- Setting or removing an amount enters it, if it is payable. -/
theorem setOrRemoveAmount_eq_ok (ho : o ∈ db.commercialPrices) {currency : Currency}
    {d : Option Decimal} : setOrRemoveAmount db o.pk currency d = .ok db' ↔
      (∀ x ∈ d, x.Payable) ∧ db' = db.putCommercialPrice (o.entered currency d) := by
  unfold setOrRemoveAmount
  -- A blank amount is removed, any other one is set.
  cases d with
  | none =>
    simp only [removePriceAmount, editCommercialPrice_of ho, Except.ok.injEq]
    simp [CommercialPrice.entered, formAmount]
  | some x =>
    simp only [setPriceAmount, editCommercialPrice_of ho, map_eq_ok]
    constructor
    · rintro ⟨o', ⟨a, ha, rfl⟩, rfl⟩
      obtain ⟨hpay, -, hcur, hprice, horig⟩ := priceAmount_eq_ok.mp ha
      have hform : formAmount currency (some x) = some a :=
        formAmount_eq_some.mpr ⟨x, rfl, hpay, hcur, hprice, horig⟩
      refine ⟨?_, by rw [CommercialPrice.entered, hform]⟩
      rintro y ⟨⟩
      exact hpay
    · rintro ⟨hpay, rfl⟩
      have hpay := hpay x rfl
      have ha : priceAmount currency x none = .ok ⟨currency, x.cents, none, hpay.cents_pos⟩ :=
        priceAmount_eq_ok.mpr ⟨hpay, by simp, rfl, rfl, rfl⟩
      refine ⟨_, ⟨_, ha, rfl⟩, ?_⟩
      simp [CommercialPrice.entered, formAmount, ha, Except.toOption]

/-- The offer becomes the configured one, if the amounts are payable. -/
theorem applyChannelPricing_eq_ok (ho : o ∈ db.commercialPrices) {entry : ChannelPricing} :
    applyChannelPricing db o.pk entry = .ok db' ↔
      entry.Payable ∧ db' = db.putCommercialPrice (o.configured entry) := by
  have hmem : ∀ (d : Db) (x y : CommercialPrice), x ∈ d.commercialPrices → y.pk = x.pk →
      y ∈ (d.putCommercialPrice y).commercialPrices :=
    fun d x y hx hpk => (Db.mem_putCommercialPrice hx hpk).mpr (Or.inl rfl)
  -- Three writes to one row: EUR, SEK and whether the offer is enabled.
  have heur := hmem db o (o.entered .eur entry.eur) ho (by simp)
  have hboth := hmem _ _ ((o.entered .eur entry.eur).entered .sek entry.sek) heur (by simp)
  have hsecond : ∀ d, setOrRemoveAmount (db.putCommercialPrice (o.entered .eur entry.eur)) o.pk
      .sek entry.sek = .ok d ↔ (∀ x ∈ entry.sek, x.Payable) ∧ d = db.putCommercialPrice
        ((o.entered .eur entry.eur).entered .sek entry.sek) := by
    intro d
    rw [← CommercialPrice.entered_pk o .eur entry.eur, setOrRemoveAmount_eq_ok heur,
      Db.putCommercialPrice_putCommercialPrice _ (by simp)]
  have hthird : setCommercialPriceEnabled (db.putCommercialPrice
      ((o.entered .eur entry.eur).entered .sek entry.sek)) o.pk entry.enabled
        = .ok db' ↔ db' = db.putCommercialPrice (o.configured entry) := by
    rw [Db.putCommercialPrice_putCommercialPrice _ (by simp)] at hboth
    have hpk : o.pk = ((o.entered .eur entry.eur).entered .sek entry.sek).pk := by simp
    rw [setCommercialPriceEnabled, hpk, editCommercialPrice_of hboth]
    simp only [Except.ok.injEq, exists_eq_left']
    rw [CommercialPrice.entered_entered] at hpk ⊢
    show db' = Db.putCommercialPrice _ (o.configured entry) ↔ _
    rw [Db.putCommercialPrice_putCommercialPrice _ (by simp)]
  simp only [applyChannelPricing, bind_eq_ok, setOrRemoveAmount_eq_ok ho]
  constructor
  · rintro ⟨_, ⟨hpay, rfl⟩, d, hsek, hset⟩
    obtain ⟨hpay', rfl⟩ := (hsecond d).mp hsek
    exact ⟨⟨hpay, hpay'⟩, hthird.mp hset⟩
  · rintro ⟨⟨hpay, hpay'⟩, h⟩
    exact ⟨_, ⟨hpay, rfl⟩, _, (hsecond _).mpr ⟨hpay', rfl⟩, hthird.mpr h⟩

end

end SwedeSweets
