import SwedeSweets.Orders.Services
import SwedeSweets.Reservations.Services

namespace SwedeSweets

/-!
# Fulfillment

Packing and cancelling with the reservation policies handed to the shared order services.
-/

namespace Fulfillment

/-- Pack an order using reservation-backed fulfillment. -/
def packOrder (rt : Runtime) (db : Db) (orderPk : ℕ) (user : Option ℕ) : Result Db :=
  SwedeSweets.packOrder rt db orderPk (consumeOrderReservationsBeforePacking rt) user

/-- Cancel an order and release reservation-backed fulfillment. -/
def cancelOrder (rt : Runtime) (db : Db) (orderPk : ℕ) (user : Option ℕ) (reason note : String) :
    Result Db :=
  SwedeSweets.cancelOrder rt db orderPk releaseOrderReservationsBeforeCancellation user reason note

end Fulfillment

end SwedeSweets
