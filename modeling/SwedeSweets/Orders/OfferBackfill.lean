import SwedeSweets.Lib.Dict
import SwedeSweets.Orders.Services

namespace SwedeSweets

open Relational Fallible

/-!
# Backfilling the commercial offer of order lines

`backfillCommercialOffers` is the data migration that gave every order line a commercial offer.
It runs on the tables as they were then: a line may have no offer, and the one-to-one selections
of a line are tables of their own, here dictionaries by line.

The function writes the database it is handed, and returns it also when it raises; that nothing
is written before a raise is not assumed but follows from the code.
-/

/-- An order line before the migration. -/
structure HistoricalLine where
  pk : ℕ
  orderId : ℕ
  productId : ℕ
  quantityInUnits : ℕ
  unitPriceSnapshot : Option Cents
  commercialOfferId : Option ℕ
  deriving DecidableEq, Repr

instance : Row HistoricalLine := ⟨HistoricalLine.pk⟩

@[simp] theorem pk_historicalLine (l : HistoricalLine) : Row.pk l = l.pk := rfl

structure HistoricalDb where
  orders : Table Order
  lines : Table HistoricalLine
  commercialPrices : Table CommercialPrice
  businessOfferSelections : Dict ℕ (Option ℕ)
  retailOfferSelections : Dict ℕ (Option ℕ)

/-- `filter(commercial_price__isnull=False).values_list("order_line_id", "commercial_price_id")`. -/
def pricedSelections (selections : Dict ℕ (Option ℕ)) : List (ℕ × ℕ) :=
  selections.entries.filterMap (fun e => e.2.map (fun price => (e.1, price)))

/-- The product-wide business offer of a product. -/
def CommercialPrice.isStandardBusiness (o : CommercialPrice) : Bool :=
  o.channel = .business && o.batchId = none

namespace HistoricalDb

/-- The retail selections are entered last and override the business selections. -/
def explicitOfferByLineId (db : HistoricalDb) : Dict ℕ ℕ :=
  (Dict.empty.update (pricedSelections db.businessOfferSelections)).update
    (pricedSelections db.retailOfferSelections)

def standardOfferByProductId (db : HistoricalDb) : Dict ℕ ℕ :=
  Dict.empty.update ((db.commercialPrices.select CommercialPrice.isStandardBusiness).map
    (fun o => (o.productId, o.pk)))

/-- The lines without an offer, each with the channel of its order. -/
def linesWithoutOffer (db : HistoricalDb) : List (HistoricalLine × Channel) :=
  (db.lines.select (fun l => l.commercialOfferId = none)).filterMap (fun l =>
    (db.orders.get? l.orderId).map (fun o => (l, o.channel)))

end HistoricalDb

/-- The offer of a line, or why it has none. -/
def resolveBackfill (explicitOfferByLineId standardOfferByProductId : Dict ℕ ℕ)
    (line : HistoricalLine) (channel : Channel) : Except String ℕ :=
  match explicitOfferByLineId.get? line.pk with
  | some offerId => .ok offerId
  | none =>
      if channel = .business then
        match standardOfferByProductId.get? line.productId with
        | some offerId => .ok offerId
        | none => .error ("line " ++ toString line.pk ++ ": business product "
            ++ toString line.productId ++ " has no standard BUSINESS offer")
      else .error ("line " ++ toString line.pk ++ ": " ++ channel.value
        ++ " line has no explicit commercial offer and none may be inferred")

/-- One turn of the loop over the lines: another unresolved line, or another update. -/
def backfillLine (explicitOfferByLineId standardOfferByProductId : Dict ℕ ℕ)
    (state : List String × List HistoricalLine) (entry : HistoricalLine × Channel) :
    List String × List HistoricalLine :=
  match resolveBackfill explicitOfferByLineId standardOfferByProductId entry.1 entry.2 with
  | .ok offerId => (state.1, state.2 ++ [{ entry.1 with commercialOfferId := some offerId }])
  | .error message => (state.1 ++ [message], state.2)

def unresolvedMessage (unresolved : List String) : String :=
  "Cannot resolve a commercial offer for " ++ toString unresolved.length ++ " order line(s):\n  "
    ++ String.intercalate "\n  " (unresolved.take 20)
    ++ if unresolved.length > 20 then "\n  ..." else ""

/-- The migration; the lines are read in any order. -/
def backfillCommercialOffers (readOrder : SetOrder (HistoricalLine × Channel)) (db : HistoricalDb) :
    HistoricalDb × Result Unit :=
  let (unresolved, updated) := (readOrder.arrange db.linesWithoutOffer).foldl
    (backfillLine db.explicitOfferByLineId db.standardOfferByProductId) ([], [])
  if unresolved ≠ [] then (db, .error (.runtimeError (unresolvedMessage unresolved)))
  else ({ db with lines := updated.foldl Table.put db.lines }, .ok ())

end SwedeSweets
