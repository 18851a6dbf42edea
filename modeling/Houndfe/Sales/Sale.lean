import Houndfe.Sales.SaleItem

/-! The sale aggregate: its draft operations, its life cycle after the charge and
the totals both the draft preview and the charge read. -/

namespace Houndfe.Sales

inductive SaleStatus where
  | draft
  | confirmed
  | canceled
  deriving DecidableEq, Repr

inductive SaleChannel where
  | pos
  | online
  deriving DecidableEq, Repr

def SaleChannel.text : SaleChannel → String
  | .pos => "POS"
  | .online => "ONLINE"

inductive SaleDeliveryStatus where
  | pending
  | delivered
  | notApplicable
  | shipped
  deriving DecidableEq, Repr

/-- `PAID`, `PARTIAL` and `CREDIT`. -/
inductive SalePaymentStatus where
  | paid
  | partialPaid
  | credit
  deriving DecidableEq, Repr

inductive SaleCancelReason where
  | customerRequest
  | orderError
  | outOfStock
  | duplicateSale
  | other
  deriving DecidableEq, Repr

/-- The order discount a sale carries, as `sale_promotion_applied` stores it. -/
structure AppliedOrderPromotionSnapshot where
  promotionId : Option String
  discountType : Option DiscountType
  discountValue : Option Int
  discountAmountCents : Int
  discountTitle : Option String
  deriving DecidableEq, Repr

structure Sale where
  id : String
  userId : String
  status : SaleStatus
  channel : SaleChannel
  register : String
  deliveryStatus : SaleDeliveryStatus
  customerId : Option String
  shippingAddressId : Option String
  sellerUserId : Option String
  dueDate : Option Int
  items : List SaleItem
  confirmedAt : Option Int
  folio : Option String
  totalCents : Int
  paidCents : Int
  debtCents : Int
  changeDueCents : Int
  paymentStatus : Option SalePaymentStatus
  canceledAt : Option Int
  cancelReason : Option SaleCancelReason
  canceledByUserId : Option String
  createdAt : Option Int
  appliedOrderPromotion : Option AppliedOrderPromotionSnapshot
  vetoedPromotionIds : List String
  optedInManualPromotionIds : List String
  globalPriceListId : Option String
  priceListExplicitlySet : Bool
  deriving DecidableEq, Repr

structure SaleTotals where
  subtotalCents : Int
  discountCents : Int
  totalCents : Int
  deriving DecidableEq, Repr

inductive DiscountStrategy where
  | replace
  | skip
  deriving DecidableEq, Repr

structure SkippedItem where
  itemId : String
  reason : String
  deriving DecidableEq, Repr

/-- Rewrite the first line that satisfies `p`; `missing` says what happens at the
end of the list when there is none. -/
def updateFirstItem (p : SaleItem → Bool) (f : SaleItem → Except DomainError SaleItem)
    (missing : Except DomainError (List SaleItem)) :
    List SaleItem → Except DomainError (List SaleItem)
  | [] => missing
  | item :: rest =>
      if p item then do
        let updated ← f item
        return updated :: rest
      else do
        let updated ← updateFirstItem p f missing rest
        return item :: updated

namespace Sale

/-- A new draft of the main register. -/
def fresh (id userId : String) : Sale where
  id := id
  userId := userId
  status := .draft
  channel := .pos
  register := "Principal"
  deliveryStatus := .delivered
  customerId := none
  shippingAddressId := none
  sellerUserId := none
  dueDate := none
  items := []
  confirmedAt := none
  folio := none
  totalCents := 0
  paidCents := 0
  debtCents := 0
  changeDueCents := 0
  paymentStatus := none
  canceledAt := none
  cancelReason := none
  canceledByUserId := none
  createdAt := none
  appliedOrderPromotion := none
  vetoedPromotionIds := []
  optedInManualPromotionIds := []
  globalPriceListId := none
  priceListExplicitlySet := false

def create (id userId : String) : Except DomainError Sale := do
  throwIf (Text.trim id = "") (invalidArgumentError "Sale ID cannot be empty")
  throwIf (Text.trim userId = "") (invalidArgumentError "User ID cannot be empty")
  return fresh id userId

def ensureDraft (sale : Sale) : Except DomainError Unit :=
  throwIf (sale.status ≠ .draft) (ruleCode "SALE_NOT_DRAFT")

def ensureNotCanceled (sale : Sale) : Except DomainError Unit :=
  throwIf (sale.status = .canceled) (ruleCode "SALE_CANCELED")

/-! ### Promotion state -/

def setAppliedOrderPromotion (sale : Sale) (snapshot : AppliedOrderPromotionSnapshot) : Sale :=
  { sale with appliedOrderPromotion := some snapshot }

def clearAppliedOrderPromotion (sale : Sale) : Sale :=
  { sale with appliedOrderPromotion := none }

def removeVetoedPromotion (sale : Sale) (promotionId : String) : Sale :=
  { sale with vetoedPromotionIds := sale.vetoedPromotionIds.filter (· ≠ promotionId) }

def optOutManualPromotion (sale : Sale) (promotionId : String) : Sale :=
  { sale with
    optedInManualPromotionIds := sale.optedInManualPromotionIds.filter (· ≠ promotionId) }

/-- A set kept as a list without repetition. -/
def pushOnce (ids : List String) (id : String) : List String :=
  if id ∈ ids then ids else ids ++ [id]

/-- Vetoing a promotion also opts out of it. -/
def addVetoedPromotion (sale : Sale) (promotionId : String) : Sale :=
  let optedOut := sale.optOutManualPromotion promotionId
  { optedOut with vetoedPromotionIds := pushOnce optedOut.vetoedPromotionIds promotionId }

/-- Opting in to a promotion also lifts its veto. -/
def optInManualPromotion (sale : Sale) (promotionId : String) : Sale :=
  let lifted := sale.removeVetoedPromotion promotionId
  { lifted with
    optedInManualPromotionIds := pushOnce lifted.optedInManualPromotionIds promotionId }

/-! ### Totals -/

def subtotalBaseCents (items : List SaleItem) : Int :=
  (items.map fun item => item.baseCents * item.quantity.val).sum

def postLineSubtotalCents (items : List SaleItem) : Int :=
  (items.map SaleItem.netCents).sum

def orderDiscountCents (sale : Sale) : Int :=
  match sale.appliedOrderPromotion with
  | some snapshot => snapshot.discountAmountCents
  | none => 0

/-- The totals of the draft preview and of the charge. -/
def previewTotals (sale : Sale) : SaleTotals :=
  let subtotalCents := subtotalBaseCents sale.items
  let totalCents := max 0 (postLineSubtotalCents sale.items - sale.orderDiscountCents)
  { subtotalCents := subtotalCents
    discountCents := min subtotalCents (subtotalCents - totalCents)
    totalCents := totalCents }

theorem previewTotals_totalCents_nonneg (sale : Sale) : 0 ≤ sale.previewTotals.totalCents :=
  le_max_left _ _

/-! ### Lines -/

def addItem (sale : Sale) (props : SaleItemProps) : Except DomainError Sale := do
  sale.ensureDraft
  let newItem ← SaleItem.create props
  -- a line of the same product and variant takes the new units, else the line is pushed
  let items ← updateFirstItem (fun item => item.isFor newItem.productId newItem.variantId)
    (fun item => item.changeQuantity (item.quantity.val + newItem.quantity.val))
    (.ok [newItem]) sale.items
  return { sale with items := items }

def updateItemQuantity (sale : Sale) (itemId : String) (newQuantity : Int) :
    Except DomainError Sale := do
  sale.ensureDraft
  throwIf (newQuantity < 1) (invalidArgumentError "Quantity must be at least 1")
  let items ← updateFirstItem (fun item => item.id = itemId)
    (fun item => item.changeQuantity newQuantity)
    (.error (businessRuleViolationError
      ("Item with ID " ++ itemId ++ " not found in sale") "BUSINESS_RULE_VIOLATION"))
    sale.items
  return { sale with items := items }

def clearItems (sale : Sale) : Except DomainError Sale := do
  sale.ensureDraft
  return { sale with items := [] }

def saleItemNotFound : DomainError := ruleCode "SALE_ITEM_NOT_FOUND"

/-- Opt out of the promotion a line carried, unless another line still carries it. -/
def optOutOrphan (sale : Sale) (removedPromotionId : Option String) : Sale :=
  match removedPromotionId with
  | none => sale
  | some promotionId =>
      if sale.items.any (fun item => item.promotionId = some promotionId) then sale
      else sale.optOutManualPromotion promotionId

def removeItem (sale : Sale) (itemId : String) : Except DomainError Sale := do
  sale.ensureDraft
  match sale.items.find? (fun item => item.id = itemId) with
  | none => throw saleItemNotFound
  | some removed =>
      let items := sale.items.eraseP fun item => item.id = itemId
      return { sale with items := items }.optOutOrphan removed.promotionId

def overrideItemPrice (sale : Sale) (itemId : String) (input : OverrideSaleItemPriceInput) :
    Except DomainError Sale := do
  let items ← updateFirstItem (fun item => item.id = itemId)
    (fun item => item.overridePrice input) (.error saleItemNotFound) sale.items
  return { sale with items := items }

def applyItemDiscount (sale : Sale) (itemId : String) (input : ApplySaleItemDiscountInput)
    (now : Int) : Except DomainError Sale := do
  let items ← updateFirstItem (fun item => item.id = itemId)
    (fun item => item.applyDiscount input now) (.error saleItemNotFound) sale.items
  return { sale with items := items }

def removeItemDiscount (sale : Sale) (itemId : String) : Except DomainError Sale := do
  match sale.items.find? (fun item => item.id = itemId) with
  | none => throw saleItemNotFound
  | some target =>
      let items ← updateFirstItem (fun item => item.id = itemId)
        (fun item => .ok item.removeDiscount) (.error saleItemNotFound) sale.items
      return { sale with items := items }.optOutOrphan target.promotionId

/-- One line of a global discount: the line, and the reason when it is skipped.
An amount that does not fit the line skips it; every other error is raised. -/
def applyGlobalDiscountToItem (input : ApplySaleItemDiscountInput) (strategy : DiscountStrategy)
    (now : Int) (item : SaleItem) : Except DomainError (SaleItem × List SkippedItem) :=
  if strategy = .skip ∧ item.discountType ≠ none then
    .ok (item, [⟨item.id, "ALREADY_DISCOUNTED"⟩])
  else
    match item.applyDiscount input now with
    | .ok updated => .ok (updated, [])
    | .error error =>
        if input.type = .amount ∧ error.message = "DISCOUNT_AMOUNT_INVALID" then
          .ok (item, [⟨item.id, "DISCOUNT_AMOUNT_INVALID"⟩])
        else .error error

def applyGlobalDiscount (sale : Sale) (input : ApplySaleItemDiscountInput)
    (strategy : DiscountStrategy) (now : Int) :
    Except DomainError (Sale × List SkippedItem) := do
  let results ← sale.items.mapM (applyGlobalDiscountToItem input strategy now)
  return ({ sale with items := results.map Prod.fst }, (results.map Prod.snd).flatten)

def removeGlobalDiscount (sale : Sale) : Sale :=
  { sale with items := sale.items.map SaleItem.removeDiscount }

/-! ### Header -/

def setGlobalPriceList (sale : Sale) (id : Option String) (explicit : Bool) :
    Except DomainError Sale := do
  sale.ensureDraft
  throwIf (∃ listId ∈ id, Text.trim listId = "") (invalidArgumentError "INVALID_PRICE_LIST_ID")
  return { sale with globalPriceListId := id, priceListExplicitlySet := explicit }

def assignCustomer (sale : Sale) (customerId : String) (shippingAddressId : Option String) :
    Except DomainError Sale := do
  sale.ensureDraft
  return { sale with customerId := some customerId, shippingAddressId := shippingAddressId }

def clearCustomer (sale : Sale) : Except DomainError Sale := do
  sale.ensureDraft
  return { sale with customerId := none, shippingAddressId := none }

/-! ### After the charge -/

/-- The canceled sale and what is to be refunded. The promotion state of the draft
does not travel. -/
def cancel (sale : Sale) (reason : SaleCancelReason) (actorId : String) (canceledAt : Int) :
    Except DomainError (Sale × Int) := do
  throwIf (sale.status ≠ .confirmed) (ruleCode "SALE_NOT_CANCELLABLE")
  throwIf (sale.deliveryStatus = .shipped ∨ sale.deliveryStatus = .delivered)
    (ruleCode "SALE_DELIVERED_CANNOT_CANCEL")
  let nothingPaid := sale.paymentStatus = some .credit ∨ sale.paidCents = 0
  return ({ sale with
    status := .canceled
    debtCents := if nothingPaid then 0 else sale.debtCents
    canceledAt := some canceledAt
    cancelReason := some reason
    canceledByUserId := some actorId
    appliedOrderPromotion := none
    vetoedPromotionIds := []
    optedInManualPromotionIds := []
    globalPriceListId := none
    priceListExplicitlySet := false }, if nothingPaid then 0 else sale.paidCents)

def setDueDate (sale : Sale) (date : Option Int) : Except DomainError Sale := do
  sale.ensureNotCanceled
  throwIf (∃ due ∈ date, ∃ confirmed ∈ sale.confirmedAt, due < confirmed)
    (ruleCode "INVALID_DUE_DATE")
  return { sale with dueDate := date }

def assignSeller (sale : Sale) (userId : String) : Except DomainError Sale := do
  sale.ensureNotCanceled
  return { sale with sellerUserId := some userId }

def clearSeller (sale : Sale) : Except DomainError Sale := do
  sale.ensureNotCanceled
  return { sale with sellerUserId := none }

end Sale

end Houndfe.Sales
