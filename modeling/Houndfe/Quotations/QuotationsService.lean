import Houndfe.Quotations.QuotationRecompute

/-! The requests on quotations: each loads one, changes it and saves it. Those that change its
lines, its customer, its list or its promotions recompute in between. -/

namespace Houndfe.Quotations

open Promotions Products

/-- The methods of the stored promotions, beside what a recompute reads. -/
structure ServiceEnvironment extends QuotationEnvironment where
  promotionMethods : String → Option PromotionMethod

/-- A request on a stored quotation; the id of a new line is drawn by the service, and
`delivery` is what rendering and mailing the document came to. -/
inductive QuotationRequest where
  | addItem (itemId productId : String) (variantId : Option String) (quantity : Int)
  | updateItemQuantity (itemId : String) (quantity : Int)
  | removeItem (itemId : String)
  | overrideItemPrice (itemId : String) (unitPriceCents : Int)
  | applyManualPromotion (promotionId : String)
  | removeManualPromotion (promotionId : String)
  | vetoPromotion (promotionId : String)
  | optInPromotion (promotionId : String)
  | setExpiry (expiresAt : Option Int)
  | cancel (cancelReason : QuotationCancelReason)
  | setNotes (notes : Option String)
  | setTaxRate (rate : Rat)
  | assignCustomer (customerId : String)
  | assignSeller (sellerUserId : String)
  | setPriceList (globalPriceListId : Option String)
  | send (sendEmail : Bool) (delivery : Except DomainError Unit)

namespace QuotationsService

def findCustomerOrFail (env : QuotationEnvironment) (customerId : String) :
    Except DomainError CustomerRow :=
  match env.customers.find? fun customer => customer.id = customerId with
  | none => .error (entityNotFoundError "Customer" customerId)
  | some customer => .ok customer

/-- The customer a new quotation names, if it names one. -/
def findNamedCustomer (env : QuotationEnvironment) :
    Option String → Except DomainError (Option CustomerRow)
  | none => .ok none
  | some customerId => (findCustomerOrFail env customerId).map some

/-- A list given by the caller is an explicit choice; otherwise the customer's is taken. -/
def openDraft (env : QuotationEnvironment) (id sellerUserId : String)
    (customerId globalPriceListId : Option String) : Except DomainError Quotation := do
  let customer ← findNamedCustomer env (customerId.filter (· ≠ ""))
  let chosenList := globalPriceListId.filter (· ≠ "")
  let draft ← Quotation.create id sellerUserId (customer.map CustomerRow.id)
    (chosenList.or (customer.bind CustomerRow.globalPriceListId)) env.now
  if chosenList.isSome then draft.setGlobalPriceList chosenList true else return draft

/-- The requests of a draft that recompute differ in what they do before. -/
def reevaluated (env : QuotationEnvironment) (draft : Quotation)
    (change : Quotation → Except DomainError Quotation) : Except DomainError Quotation := do
  draft.ensureDraft
  let changed ← change draft
  recomputePricingAndPromotions env changed

/-- The product as it is sold, with its taxes; stock is not asked for. -/
def withItem (env : QuotationEnvironment) (itemId productId : String) (variantId : Option String)
    (quantity : Int) (draft : Quotation) : Except DomainError Quotation := do
  let productInfo ← env.catalog.getProductInfoForSale productId variantId
  let metadata := env.productTaxes productInfo.productId
  draft.addItem {
    id := itemId
    quotationId := draft.id
    productId := productInfo.productId
    variantId := productInfo.variantId
    productName := productInfo.productName
    variantName := productInfo.variantName
    quantity := quantity
    unitPriceCents := productInfo.unitPriceCents
    unitPriceCurrency := "MXN"
    priceSource := .priceList
    ivaRateClassification := metadata.ivaRate
    chargeProductTaxesSnapshot := metadata.chargeProductTaxes }

def addItem (env : QuotationEnvironment) (draft : Quotation) (itemId productId : String)
    (variantId : Option String) (quantity : Int) : Except DomainError Quotation :=
  reevaluated env draft (withItem env itemId productId variantId quantity)

def updateItemQuantity (env : QuotationEnvironment) (draft : Quotation) (itemId : String)
    (quantity : Int) : Except DomainError Quotation :=
  reevaluated env draft fun draft => draft.updateItemQuantity itemId quantity

def removeItem (env : QuotationEnvironment) (draft : Quotation) (itemId : String) :
    Except DomainError Quotation :=
  reevaluated env draft fun draft => draft.removeItem itemId

def overrideItemPrice (env : QuotationEnvironment) (draft : Quotation) (itemId : String)
    (unitPriceCents : Int) : Except DomainError Quotation :=
  reevaluated env draft fun draft => draft.overrideItemPrice itemId
    ⟨unitPriceCents, .custom, none, some unitPriceCents⟩

def assertPromotionIsManual (env : ServiceEnvironment) (promotionId : String) :
    Except DomainError Unit :=
  match env.promotionMethods promotionId with
  | none => .error (entityNotFoundError "Promotion" promotionId)
  | some method => throwIf (method ≠ .manual) (businessRuleViolationError
      ("Promotion " ++ promotionId ++ " is method=AUTOMATIC, not MANUAL. " ++
        "Use veto/opt-in endpoints for AUTOMATIC promotions.") "PROMOTION_IS_NOT_MANUAL")

def applyManualPromotion (env : ServiceEnvironment) (draft : Quotation) (promotionId : String) :
    Except DomainError Quotation :=
  reevaluated env.toQuotationEnvironment draft fun draft => do
    assertPromotionIsManual env promotionId
    return draft.optInManualPromotion promotionId

def removeManualPromotion (env : QuotationEnvironment) (draft : Quotation)
    (promotionId : String) : Except DomainError Quotation :=
  reevaluated env draft fun draft => .ok (draft.optOutManualPromotion promotionId)

def vetoPromotion (env : QuotationEnvironment) (draft : Quotation) (promotionId : String) :
    Except DomainError Quotation :=
  reevaluated env draft fun draft => .ok (draft.addVetoedPromotion promotionId)

/-- The veto is lifted; nothing is opted in. -/
def optInPromotion (env : QuotationEnvironment) (draft : Quotation) (promotionId : String) :
    Except DomainError Quotation :=
  reevaluated env draft fun draft => .ok (draft.removeVetoedPromotion promotionId)

/-- Bind the list of the customer, unless one was chosen. -/
def seedCustomerList (draft : Quotation) (customer : CustomerRow) : Except DomainError Quotation :=
  let customerList := customer.globalPriceListId.filter (· ≠ "")
  if draft.priceListExplicitlySet = false ∧ customerList.isSome then
    draft.setGlobalPriceList customerList false
  else .ok draft

/-- The list that is bound by then is handed on to the quotation. -/
def withCustomer (env : QuotationEnvironment) (customerId : String) (draft : Quotation) :
    Except DomainError Quotation := do
  let customer ← findCustomerOrFail env customerId
  let seeded ← seedCustomerList draft customer
  seeded.assignCustomer customer.id seeded.globalPriceListId

def assignCustomer (env : QuotationEnvironment) (draft : Quotation) (customerId : String) :
    Except DomainError Quotation :=
  reevaluated env draft (withCustomer env customerId)

def setPriceList (env : QuotationEnvironment) (draft : Quotation)
    (globalPriceListId : Option String) : Except DomainError Quotation :=
  reevaluated env draft fun draft => do
    throwIf (∃ id ∈ globalPriceListId, id ∉ env.globalPriceListIds)
      (ruleCode "PRICE_LIST_NOT_FOUND")
    draft.setGlobalPriceList globalPriceListId true

def assignSeller (env : QuotationEnvironment) (draft : Quotation) (sellerUserId : String) :
    Except DomainError Quotation := do
  throwIf (sellerUserId ∉ env.userIds) (ruleCode "SELLER_NOT_FOUND")
  draft.assignSeller sellerUserId

/-- The address the document goes to. -/
def customerEmail (env : QuotationEnvironment) (draft : Quotation) : Option String :=
  draft.customerId.bind fun customerId =>
    (env.customers.find? fun customer => customer.id = customerId).bind fun customer =>
      customer.email.filter (· ≠ "")

def send (env : QuotationEnvironment) (draft : Quotation) (sendEmail : Bool)
    (delivery : Except DomainError Unit) : Except DomainError Quotation := do
  draft.ensureDraft
  throwIf (draft.items = []) (quotationHasNoItemsError draft.id)
  throwIf (sendEmail ∧ customerEmail env draft = none) (businessRuleViolationError
    ("Quotation " ++ draft.id ++ " cannot be sent: assigned customer has no email address")
    "QUOTATION_CUSTOMER_HAS_NO_EMAIL")
  delivery
  draft.send

/-- The quotation that a request saves. -/
def serve (env : ServiceEnvironment) (draft : Quotation) :
    QuotationRequest → Except DomainError Quotation
  | .addItem itemId productId variantId quantity =>
      addItem env.toQuotationEnvironment draft itemId productId variantId quantity
  | .updateItemQuantity itemId quantity =>
      updateItemQuantity env.toQuotationEnvironment draft itemId quantity
  | .removeItem itemId => removeItem env.toQuotationEnvironment draft itemId
  | .overrideItemPrice itemId unitPriceCents =>
      overrideItemPrice env.toQuotationEnvironment draft itemId unitPriceCents
  | .applyManualPromotion promotionId => applyManualPromotion env draft promotionId
  | .removeManualPromotion promotionId =>
      removeManualPromotion env.toQuotationEnvironment draft promotionId
  | .vetoPromotion promotionId => vetoPromotion env.toQuotationEnvironment draft promotionId
  | .optInPromotion promotionId => optInPromotion env.toQuotationEnvironment draft promotionId
  | .setExpiry expiresAt => draft.setExpiry expiresAt
  | .cancel cancelReason => .ok (draft.cancel cancelReason env.now)
  | .setNotes notes => draft.setNotes notes
  | .setTaxRate rate => draft.setDeprecatedTaxRate rate
  | .assignCustomer customerId => assignCustomer env.toQuotationEnvironment draft customerId
  | .assignSeller sellerUserId => assignSeller env.toQuotationEnvironment draft sellerUserId
  | .setPriceList globalPriceListId =>
      setPriceList env.toQuotationEnvironment draft globalPriceListId
  | .send sendEmail delivery => send env.toQuotationEnvironment draft sendEmail delivery

end QuotationsService

end Houndfe.Quotations
