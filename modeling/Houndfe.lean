import Houndfe.Promotions.ExpiryScanner
import Houndfe.Promotions.OperatorEnd
import Houndfe.Outbox.Leases
import Houndfe.Promotions.AdvancedAllocation
import Houndfe.Sales.OptIns
import Houndfe.Sales.ChangeIsCash
import Houndfe.Sales.TerminalStates
import Houndfe.Sales.BotConfirmation
import Houndfe.Sales.ChargeFinality
import Houndfe.Cash.Verification
import Houndfe.Cash.Idempotency
import Houndfe.DeliveryRoutes.SaleScope
import Houndfe.DeliveryRoutes.Transfers
import Houndfe.Sales.Idempotency
import Houndfe.Sales.ChargeValidation
import Houndfe.Quotations.CustomerLists
import Houndfe.Quotations.IvaBreakdown
import Houndfe.Quotations.Lifecycle
import Houndfe.Quotations.LinePromotions
import Houndfe.Quotations.PriceListGate
import Houndfe.Inventory.SaleReversal
import Houndfe.CatalogEditorial.InternalData
import Houndfe.Employees.TimeOffDecisions
import Houndfe.PublicCatalog.Agreement
import Houndfe.PublicCatalog.ListTotals
import Houndfe.PublicCatalog.TenantScope
import Houndfe.Promotions.ManualOffers
import Houndfe.Cash.OfferedFloats
import Houndfe.Cash.CountAcceptance
import Houndfe.Sales.SaleFilters
import Houndfe.Sales.GlobalDiscount
import Houndfe.Sales.PaymentEvents
import Houndfe.Sales.QuoteAllocation
import Houndfe.Products.BatchAgreement
import Houndfe.Inventory.FefoAllocation
import Houndfe.Procurement.Decimals
import Houndfe.Promotions.BusinessDays
import Houndfe.Promotions.StatusFilters
import Houndfe.Shipping.QuoteRoundTrip
import Houndfe.HumanDecisions.ReviewInbox
import Houndfe.Receipts.Retention
import Houndfe.CatalogEditorial.CanonicalJson
