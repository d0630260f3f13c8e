import SwedeSweets.Lib.Table
import SwedeSweets.Lib.Fallible
import SwedeSweets.Lib.Dict
import SwedeSweets.Lib.RoundUp
import SwedeSweets.Lib.Greedy
import SwedeSweets.Lib.Interleaving
import SwedeSweets.Lib.ReadCommitted
import SwedeSweets.Lib.WaitFor
import SwedeSweets.Lib.Turns
import SwedeSweets.Columns
import SwedeSweets.Catalog
import SwedeSweets.Database
import SwedeSweets.Reservations.Selectors
import SwedeSweets.Reservations.Planning
import SwedeSweets.Pricing.Selectors
import SwedeSweets.Pricing.Pools
import SwedeSweets.Reservations.Services
import SwedeSweets.Reservations.Effects
import SwedeSweets.Reservations.Shares
import SwedeSweets.Inventory.Services
import SwedeSweets.Orders.Services
import SwedeSweets.Business.Services
import SwedeSweets.Payments.Services
import SwedeSweets.Fulfillment.Services
import SwedeSweets.Retail.Services
import SwedeSweets.Reservations.Lines
import SwedeSweets.Invariants.Stock
import SwedeSweets.Invariants.Orders
import SwedeSweets.Orders.Effects
import SwedeSweets.Invariants.Lifecycle
import SwedeSweets.Invariants.Payments
import SwedeSweets.System
import SwedeSweets.Invariants.Reachable
import SwedeSweets.Guarantees.Stock
import SwedeSweets.Guarantees.Payments
import SwedeSweets.Concurrency.Sessions
import SwedeSweets.Concurrency.Reconciliation
import SwedeSweets.Guarantees.Settlement
import SwedeSweets.Inventory.Availability
import SwedeSweets.Business.Selectors
import SwedeSweets.Guarantees.Planning
import SwedeSweets.Guarantees.Catalog
import SwedeSweets.Guarantees.Pools
import SwedeSweets.Concurrency.StockTransactions
import SwedeSweets.Concurrency.OrderTransactions
import SwedeSweets.Concurrency.StockDiscipline
import SwedeSweets.Concurrency.StockSafety
import SwedeSweets.Concurrency.Stock
import SwedeSweets.Concurrency.Accounts
import SwedeSweets.Guarantees.RetailCatalog
import SwedeSweets.Business.Drafts
import SwedeSweets.Business.OfferChoices
import SwedeSweets.Business.DraftEffects
import SwedeSweets.Invariants.OrderLines
import SwedeSweets.Business.Edits
import SwedeSweets.Business.PlacedEdits
import SwedeSweets.Guarantees.OrderLines
import SwedeSweets.Business.Placement
import SwedeSweets.Guarantees.DraftPlacement
import SwedeSweets.OpsPortal.Checklist
import SwedeSweets.Guarantees.Checklist
import SwedeSweets.Guarantees.OfferChoices
import SwedeSweets.Concurrency.Deadlock
import SwedeSweets.Concurrency.Baskets
import SwedeSweets.Retail.CartEffects
import SwedeSweets.Concurrency.Carts
import SwedeSweets.Guarantees.CartCheckout
import SwedeSweets.Guarantees.CartLimits
import SwedeSweets.Guarantees.Units
import SwedeSweets.Guarantees.Resolution
import SwedeSweets.Guarantees.OpsOrders
import SwedeSweets.Inventory.BatchIds
import SwedeSweets.Guarantees.BatchIds
import SwedeSweets.Business.DraftMutations
import SwedeSweets.Guarantees.DraftLimits
import SwedeSweets.Guarantees.DraftPools
import SwedeSweets.Guarantees.PlacedEdits
import SwedeSweets.Business.RepeatOrders
import SwedeSweets.Guarantees.RepeatOrders
import SwedeSweets.Retail.Reconciliation
import SwedeSweets.Guarantees.BatchReconciliation
import SwedeSweets.Guarantees.OrderStamps
import SwedeSweets.Whitespace
import SwedeSweets.Products.Catalog
import SwedeSweets.Products.Services
import SwedeSweets.Products.Skus
import SwedeSweets.Guarantees.Products
import SwedeSweets.Config.ExportOrderHistory
import SwedeSweets.Invariants.OfferSelections
import SwedeSweets.Guarantees.OrderExport
import SwedeSweets.Retail.DeliveryAreas
import SwedeSweets.Guarantees.DeliveryAreas
import SwedeSweets.Orders.OfferBackfill
import SwedeSweets.Guarantees.OfferBackfill
import SwedeSweets.Guarantees.BatchLifecycle
import SwedeSweets.Products.Images
import SwedeSweets.Guarantees.ProductImages
import SwedeSweets.Lib.TopN
import SwedeSweets.Customers.Models
import SwedeSweets.Accounts.Activity
import SwedeSweets.Guarantees.Activity
import SwedeSweets.Pricing.Services
import SwedeSweets.Pricing.Effects
import SwedeSweets.Pricing.Forms
import SwedeSweets.Invariants.Offers
import SwedeSweets.Invariants.CatalogKept
import SwedeSweets.Guarantees.Pricing
import SwedeSweets.Lib.Percent
import SwedeSweets.Payments.SumUp
import SwedeSweets.Retail.HostedPayments
import SwedeSweets.Guarantees.SumUp
import SwedeSweets.Guarantees.Wire
import SwedeSweets.Guarantees.Webhook
import SwedeSweets.Guarantees.HostedCheckout
