import Houndfe.Base.Traverse
import Houndfe.Quotations.QuotationItem

/-! The quotation aggregate. Its totals exist twice: as columns that every transition copies,
and as the fold over its lines. -/

namespace Houndfe.Quotations

open Traverse

inductive QuotationStatus where
  | draft
  | sent
  | expired
  | cancelled
  deriving DecidableEq, Repr

def QuotationStatus.text : QuotationStatus → String
  | .draft => "DRAFT"
  | .sent => "SENT"
  | .expired => "EXPIRED"
  | .cancelled => "CANCELLED"

inductive QuotationCancelReason where
  | customerRequest
  | priceObjection
  | expired
  | other
  deriving DecidableEq, Repr

structure Quotation where
  id : String
  sellerUserId : String
  status : QuotationStatus
  subtotalCents : Int
  discountCents : Int
  totalCents : Int
  manuallyEnded : Bool
  cancelReason : Option QuotationCancelReason
  canceledAt : Option Int
  createdAt : Int
  customerId : Option String
  globalPriceListId : Option String
  priceListExplicitlySet : Bool
  expiresAt : Option Int
  items : List QuotationItem
  vetoedPromotionIds : List String
  optedInManualPromotionIds : List String
  customerNotes : Option String
  taxRate : Rat
  deriving DecidableEq, Repr

structure QuotationTotals where
  subtotalCents : Int
  discountCents : Int
  totalCents : Int
  deriving DecidableEq, Repr

def quotationNotDraftError (currentStatus : QuotationStatus) : DomainError :=
  businessRuleViolationError
    ("Quotation is in " ++ currentStatus.text ++ " status; mutation is not allowed")
    "QUOTATION_NOT_DRAFT"

def quotationItemNotFoundError (itemId : String) : DomainError :=
  businessRuleViolationError ("QuotationItem with id \"" ++ itemId ++ "\" not found")
    "QUOTATION_ITEM_NOT_FOUND"

def quotationHasNoItemsError (id : String) : DomainError :=
  businessRuleViolationError ("Quotation " ++ id ++ " cannot be sent because it has no items")
    "QUOTATION_HAS_NO_ITEMS"

namespace Quotation

/-- A new draft: no lines and totals of zero. -/
def fresh (id sellerUserId : String) (customerId globalPriceListId : Option String)
    (createdAt : Int) : Quotation where
  id := id
  sellerUserId := sellerUserId
  status := .draft
  subtotalCents := 0
  discountCents := 0
  totalCents := 0
  manuallyEnded := false
  cancelReason := none
  canceledAt := none
  createdAt := createdAt
  customerId := customerId
  globalPriceListId := globalPriceListId
  priceListExplicitlySet := false
  expiresAt := none
  items := []
  vetoedPromotionIds := []
  optedInManualPromotionIds := []
  customerNotes := none
  taxRate := 16 / 100

def create (id sellerUserId : String) (customerId globalPriceListId : Option String)
    (createdAt : Int) : Except DomainError Quotation := do
  throwIf (Text.trim id = "") (invalidArgumentError "Quotation ID cannot be empty")
  throwIf (Text.trim sellerUserId = "") (invalidArgumentError "Seller user ID cannot be empty")
  return fresh id sellerUserId customerId globalPriceListId createdAt

def ensureDraft (quotation : Quotation) : Except DomainError Unit :=
  throwIf (quotation.status ≠ .draft) (quotationNotDraftError quotation.status)

/-! ### Lines -/

def addItem (quotation : Quotation) (props : QuotationItemProps) :
    Except DomainError Quotation := do
  quotation.ensureDraft
  let newItem ← QuotationItem.create props
  -- a line of the same product and variant takes the new units, else the line is pushed
  let items ← updateFirst (fun item => item.isFor newItem.productId newItem.variantId)
    (fun item => item.changeQuantity (item.quantity.val + newItem.quantity.val))
    (.ok [newItem]) quotation.items
  return { quotation with items := items }

/-- Rewrite the line of an id. -/
def updateItem (quotation : Quotation) (itemId : String)
    (f : QuotationItem → Except DomainError QuotationItem) : Except DomainError Quotation := do
  let items ← updateFirst (fun item => item.id = itemId) f
    (.error (quotationItemNotFoundError itemId)) quotation.items
  return { quotation with items := items }

def updateItemQuantity (quotation : Quotation) (itemId : String) (newQuantity : Int) :
    Except DomainError Quotation := do
  quotation.ensureDraft
  throwIf (newQuantity < 1) (invalidArgumentError "Quantity must be at least 1")
  quotation.updateItem itemId fun item => item.changeQuantity newQuantity

def removeItem (quotation : Quotation) (itemId : String) : Except DomainError Quotation := do
  quotation.ensureDraft
  throwIf (∀ item ∈ quotation.items, item.id ≠ itemId) (quotationItemNotFoundError itemId)
  return { quotation with items := quotation.items.eraseP fun item => item.id = itemId }

def overrideItemPrice (quotation : Quotation) (itemId : String)
    (input : OverrideQuotationItemPriceInput) : Except DomainError Quotation := do
  quotation.ensureDraft
  quotation.updateItem itemId fun item => item.overridePrice input

/-! ### Customer, price list and seller -/

/-- The list that comes with the customer counts unless one was chosen. -/
def assignCustomer (quotation : Quotation) (customerId : String) (priceListId : Option String) :
    Except DomainError Quotation := do
  quotation.ensureDraft
  throwIf (Text.trim customerId = "") (invalidArgumentError "Customer ID cannot be empty")
  return { quotation with
    customerId := some customerId
    globalPriceListId :=
      if quotation.priceListExplicitlySet then quotation.globalPriceListId else priceListId }

def clearCustomer (quotation : Quotation) : Except DomainError Quotation := do
  quotation.ensureDraft
  return { quotation with
    customerId := none
    globalPriceListId :=
      if quotation.priceListExplicitlySet then quotation.globalPriceListId else none }

def setGlobalPriceList (quotation : Quotation) (id : Option String) (explicit : Bool) :
    Except DomainError Quotation := do
  quotation.ensureDraft
  throwIf (∃ listId ∈ id, Text.trim listId = "") (invalidArgumentError "INVALID_PRICE_LIST_ID")
  return { quotation with globalPriceListId := id, priceListExplicitlySet := explicit }

def assignSeller (quotation : Quotation) (userId : String) : Except DomainError Quotation := do
  quotation.ensureDraft
  return { quotation with sellerUserId := userId }

/-! ### Promotion state -/

def removeVetoedPromotion (quotation : Quotation) (promotionId : String) : Quotation :=
  { quotation with vetoedPromotionIds := quotation.vetoedPromotionIds.filter (· ≠ promotionId) }

def optOutManualPromotion (quotation : Quotation) (promotionId : String) : Quotation :=
  { quotation with
    optedInManualPromotionIds := quotation.optedInManualPromotionIds.filter (· ≠ promotionId) }

/-- A set kept as a list without repetition. -/
def pushOnce (ids : List String) (id : String) : List String :=
  if id ∈ ids then ids else ids ++ [id]

/-- Vetoing a promotion also opts out of it. -/
def addVetoedPromotion (quotation : Quotation) (promotionId : String) : Quotation :=
  let optedOut := quotation.optOutManualPromotion promotionId
  { optedOut with vetoedPromotionIds := pushOnce optedOut.vetoedPromotionIds promotionId }

/-- Opting in to a promotion also lifts its veto. -/
def optInManualPromotion (quotation : Quotation) (promotionId : String) : Quotation :=
  let lifted := quotation.removeVetoedPromotion promotionId
  { lifted with
    optedInManualPromotionIds := pushOnce lifted.optedInManualPromotionIds promotionId }

/-! ### Expiry, notes and tax rate -/

def setExpiry (quotation : Quotation) (date : Option Int) : Except DomainError Quotation := do
  quotation.ensureDraft
  return { quotation with expiresAt := date }

def setNotes (quotation : Quotation) (notes : Option String) : Except DomainError Quotation := do
  quotation.ensureDraft
  throwIf (280 < (notes.map Text.utf16Length).getD 0)
    (invalidArgumentWithCode "Customer notes must be 280 characters or fewer" "NOTES_TOO_LONG")
  return { quotation with customerNotes := notes }

def setDeprecatedTaxRate (quotation : Quotation) (rate : Rat) : Except DomainError Quotation := do
  quotation.ensureDraft
  throwIf (rate < 0 ∨ 1 < rate)
    (invalidArgumentWithCode "Tax rate must be between 0 and 1" "INVALID_TAX_RATE")
  return { quotation with taxRate := rate }

/-! ### Transitions -/

/-- The totals are copied, not computed. -/
def send (quotation : Quotation) : Except DomainError Quotation := do
  quotation.ensureDraft
  throwIf (quotation.items = []) (quotationHasNoItemsError quotation.id)
  return { quotation with status := .sent }

/-- Cancelling a cancelled quotation changes nothing. -/
def cancel (quotation : Quotation) (reason : QuotationCancelReason) (canceledAt : Int) :
    Quotation :=
  if quotation.status = .cancelled then quotation
  else
    { quotation with
      status := .cancelled
      cancelReason := some reason
      canceledAt := some canceledAt }

/-! ### Totals -/

/-- The columns. -/
def storedTotals (quotation : Quotation) : QuotationTotals :=
  ⟨quotation.subtotalCents, quotation.discountCents, quotation.totalCents⟩

def grossCents (items : List QuotationItem) : Int :=
  (items.map fun item => (item.unitPriceCents + item.discountAmountCents) * item.quantity.val).sum

def netCents (items : List QuotationItem) : Int :=
  (items.map fun item => item.unitPriceCents * item.quantity.val).sum

/-- The totals of every response. -/
def recomputeTotals (quotation : Quotation) : QuotationTotals :=
  let subtotalCents := grossCents quotation.items
  let totalCents := netCents quotation.items
  ⟨subtotalCents, max 0 (subtotalCents - totalCents), totalCents⟩

end Quotation

end Houndfe.Quotations
