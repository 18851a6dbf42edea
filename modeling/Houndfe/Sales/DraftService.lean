import Houndfe.Sales.Recompute

/-! The requests that change a draft. Each loads the sale, changes it and saves it; some
recompute the prices and promotions in between, and some do not. -/

namespace Houndfe.Sales

open Promotions Products

structure StockAvailability where
  available : Bool
  currentStock : Int
  deriving DecidableEq, Repr

structure CustomerRow where
  id : String
  globalPriceListId : Option String
  deriving DecidableEq, Repr

structure CustomerAddressRow where
  id : String
  customerId : String
  deriving DecidableEq, Repr

/-- What a request reads besides the draft. -/
structure DraftEnvironment where
  now : Int
  today : DayOfWeek
  catalog : ProductCatalog
  productCategoryBrand : String → Option (Option String × Option String)
  promotions : List Promotion
  checkStockAvailability : String → Option String → Int → Except DomainError StockAvailability
  customers : List CustomerRow
  customerAddresses : List CustomerAddressRow
  globalPriceListIds : List String

def DraftEnvironment.pricing (env : DraftEnvironment) : PricingEnvironment where
  now := env.now
  today := env.today
  catalog := env.catalog.prices
  defaultGlobalPriceListId := env.catalog.defaultGlobalPriceListId
  productCategoryBrand := env.productCategoryBrand
  promotions := env.promotions

/-- A request with its input; the id of a new line is drawn by the service. -/
inductive DraftMutation where
  | addItem (itemId productId : String) (variantId : Option String) (quantity : Int)
  | updateItemQuantity (itemId : String) (quantity : Int)
  | clearItems
  | removeItem (itemId : String)
  | overrideItemPrice (itemId : String) (priceListId : Option String)
      (customPriceCents : Option Int)
  | applyItemDiscount (itemId : String) (input : ApplySaleItemDiscountInput)
  | removeItemDiscount (itemId : String)
  | applyGlobalDiscount (input : ApplySaleItemDiscountInput) (strategy : DiscountStrategy)
  | removeGlobalDiscount
  | applyManualPromotion (promotionId : String)
  | removeManualPromotion (promotionId : String)
  | removeAppliedPromotion (promotionId : String)
  | assignCustomer (customerId : String) (shippingAddressId : Option String)
  | clearCustomer
  | setSalePriceList (globalPriceListId : Option String)
  deriving DecidableEq, Repr

namespace DraftService

def ensureOwns (sale : Sale) (userId : String) : Except DomainError Unit :=
  throwIf (sale.userId ≠ userId) (businessRuleViolationError
    ("User " ++ userId ++ " does not own this sale") "BUSINESS_RULE_VIOLATION")

def ensureMayUpdate (sale : Sale) (actorId : String) : Except DomainError Unit :=
  throwIf (sale.userId ≠ actorId) (ruleCode "SALE_UPDATE_FORBIDDEN")

/-- Recompute, keeping the sale only. -/
def reevaluate (env : DraftEnvironment) (sale : Sale) : Except DomainError Sale := do
  let recomputed ← recomputePricingAndPromotions env.pricing sale
  return recomputed.sale

def ensureStock (env : DraftEnvironment) (productId : String) (variantId : Option String)
    (requested : Int) : Except DomainError Unit := do
  let stockCheck ← env.checkStockAvailability productId variantId requested
  throwIf (stockCheck.available = false) (businessRuleViolationError
    ("Insufficient stock for product " ++ productId ++ ". Available: " ++
      toString stockCheck.currentStock ++ ", Requested: " ++ toString requested)
    "BUSINESS_RULE_VIOLATION")

def addItem (env : DraftEnvironment) (userId : String) (sale : Sale) (itemId productId : String)
    (variantId : Option String) (quantity : Int) : Except DomainError Sale := do
  ensureOwns sale userId
  sale.ensureDraft
  let productInfo ← env.catalog.getProductInfoForSale productId variantId
  let cumulativeQuantity :=
    match sale.items.find? fun item => item.isFor productId variantId with
    | some existingItem => existingItem.quantity.val + quantity
    | none => quantity
  ensureStock env productId variantId cumulativeQuantity
  let added ← sale.addItem {
    id := itemId
    saleId := sale.id
    productId := productInfo.productId
    variantId := productInfo.variantId
    productName := productInfo.productName
    variantName := productInfo.variantName
    imageUrl := productInfo.imageUrl
    quantity := quantity
    unitPriceCents := productInfo.unitPriceCents
    unitPriceCurrency := "MXN" }
  reevaluate env added

def updateItemQuantity (env : DraftEnvironment) (userId : String) (sale : Sale) (itemId : String)
    (quantity : Int) : Except DomainError Sale := do
  ensureOwns sale userId
  sale.ensureDraft
  match sale.items.find? fun item => item.id = itemId with
  | none => throw (businessRuleViolationError ("Item " ++ itemId ++ " not found in sale")
      "BUSINESS_RULE_VIOLATION")
  | some item =>
      ensureStock env item.productId item.variantId quantity
      let updated ← sale.updateItemQuantity itemId quantity
      reevaluate env updated

/-- No recompute: the sale keeps its order discount, over no lines. -/
def clearItems (userId : String) (sale : Sale) : Except DomainError Sale := do
  ensureOwns sale userId
  sale.clearItems

def removeItem (env : DraftEnvironment) (actorId : String) (sale : Sale) (itemId : String) :
    Except DomainError Sale := do
  ensureMayUpdate sale actorId
  let removed ← sale.removeItem itemId
  reevaluate env removed

/-- The price of the override: the one of a list, or the custom one. -/
def overrideInput (env : DraftEnvironment) (item : SaleItem) (priceListId : Option String)
    (customPriceCents : Option Int) : Except DomainError OverrideSaleItemPriceInput :=
  match priceListId.filter (· ≠ "") with
  | some priceListId => do
      let resolved ← env.catalog.prices.resolveListPrice priceListId item.productId
        item.variantId item.quantity.val
      return ⟨resolved, .priceList, some priceListId, none⟩
  | none => .ok ⟨customPriceCents.getD 0, .custom, none, customPriceCents⟩

def overrideItemPrice (env : DraftEnvironment) (actorId : String) (sale : Sale) (itemId : String)
    (priceListId : Option String) (customPriceCents : Option Int) : Except DomainError Sale := do
  throwIf ((priceListId.filter (· ≠ "")).isSome = (customPriceCents.filter (· ≠ 0)).isSome)
    (businessRuleViolationError "INVALID_PRICE_OVERRIDE_INPUT" "BUSINESS_RULE_VIOLATION")
  sale.ensureDraft
  ensureMayUpdate sale actorId
  match sale.items.find? fun item => item.id = itemId with
  | none => throw Sale.saleItemNotFound
  | some item =>
      let input ← overrideInput env item priceListId customPriceCents
      let overridden ← sale.overrideItemPrice itemId input
      reevaluate env overridden

def ensureDiscountInput (input : ApplySaleItemDiscountInput) : Except DomainError Unit :=
  throwIf ((input.type = .amount ∧ input.amountCents = none) ∨
      (input.type = .percentage ∧ input.percent = none) ∨
        (input.amountCents ≠ none ∧ input.percent ≠ none)) (ruleCode "INVALID_DISCOUNT_INPUT")

/-- No recompute: the other lines and the order discount stay as they were. -/
def applyItemDiscount (env : DraftEnvironment) (actorId : String) (sale : Sale) (itemId : String)
    (input : ApplySaleItemDiscountInput) : Except DomainError Sale := do
  ensureDiscountInput input
  ensureMayUpdate sale actorId
  sale.applyItemDiscount itemId { input with promotionId := none } env.now

def removeItemDiscount (env : DraftEnvironment) (actorId : String) (sale : Sale)
    (itemId : String) : Except DomainError Sale := do
  ensureMayUpdate sale actorId
  let removed ← sale.removeItemDiscount itemId
  reevaluate env removed

/-- No recompute. -/
def applyGlobalDiscount (env : DraftEnvironment) (actorId : String) (sale : Sale)
    (input : ApplySaleItemDiscountInput) (strategy : DiscountStrategy) :
    Except DomainError Sale := do
  ensureDiscountInput input
  sale.ensureDraft
  ensureMayUpdate sale actorId
  let result ← sale.applyGlobalDiscount { input with promotionId := none } strategy env.now
  return result.1

/-- No recompute. -/
def removeGlobalDiscount (actorId : String) (sale : Sale) : Except DomainError Sale := do
  sale.ensureDraft
  ensureMayUpdate sale actorId
  return sale.removeGlobalDiscount

/-- The three requests about one promotion differ in what they do to its id. -/
def changePromotion (env : DraftEnvironment) (actorId : String) (sale : Sale)
    (change : Sale → Sale) : Except DomainError Sale := do
  sale.ensureDraft
  ensureMayUpdate sale actorId
  reevaluate env (change sale)

def applyManualPromotion (env : DraftEnvironment) (actorId : String) (sale : Sale)
    (promotionId : String) : Except DomainError Sale :=
  changePromotion env actorId sale fun sale => sale.optInManualPromotion promotionId

def removeManualPromotion (env : DraftEnvironment) (actorId : String) (sale : Sale)
    (promotionId : String) : Except DomainError Sale :=
  changePromotion env actorId sale fun sale => sale.optOutManualPromotion promotionId

/-- A promotion that was opted in is opted out, any other one is vetoed. -/
def removeAppliedPromotion (env : DraftEnvironment) (actorId : String) (sale : Sale)
    (promotionId : String) : Except DomainError Sale :=
  changePromotion env actorId sale fun sale =>
    if promotionId ∈ sale.optedInManualPromotionIds then sale.optOutManualPromotion promotionId
    else sale.addVetoedPromotion promotionId

/-- Seed the list of the sale with the customer's, unless the cashier chose one. -/
def seedCustomerList (sale : Sale) (customer : CustomerRow) : Except DomainError Sale :=
  if sale.priceListExplicitlySet then .ok sale
  else
    match customer.globalPriceListId with
    | none => .ok sale
    | some customerList => sale.setGlobalPriceList (some customerList) false

def ensureAddressOf (env : DraftEnvironment) (customerId : String)
    (shippingAddressId : Option String) : Except DomainError Unit :=
  match shippingAddressId with
  | none => .ok ()
  | some addressId =>
      match env.customerAddresses.find? fun address => address.id = addressId with
      | none => .error (ruleCode "SHIPPING_ADDRESS_NOT_FOUND")
      | some address => throwIf (address.customerId ≠ customerId)
          (ruleCode "SHIPPING_ADDRESS_NOT_FOR_CUSTOMER")

/-- The sale with the customer and the list, before the recompute. -/
def withCustomer (env : DraftEnvironment) (sale : Sale) (customerId : String)
    (shippingAddressId : Option String) : Except DomainError Sale := do
  match env.customers.find? fun customer => customer.id = customerId with
  | none => throw (ruleCode "CUSTOMER_NOT_FOUND")
  | some customer =>
      let seeded ← seedCustomerList sale customer
      ensureAddressOf env customerId shippingAddressId
      seeded.assignCustomer customerId shippingAddressId

def assignCustomer (env : DraftEnvironment) (userId : String) (sale : Sale) (customerId : String)
    (shippingAddressId : Option String) : Except DomainError Sale := do
  sale.ensureDraft
  ensureMayUpdate sale userId
  let assigned ← withCustomer env sale customerId shippingAddressId
  reevaluate env assigned

/-- No recompute; without a customer there is nothing to save. -/
def clearCustomer (userId : String) (sale : Sale) : Except DomainError (Option Sale) := do
  sale.ensureDraft
  ensureMayUpdate sale userId
  if sale.customerId = none then return none
  else
    let cleared ← sale.clearCustomer
    return some cleared

def setSalePriceList (env : DraftEnvironment) (userId : String) (sale : Sale)
    (globalPriceListId : Option String) : Except DomainError Sale := do
  sale.ensureDraft
  ensureMayUpdate sale userId
  throwIf (∃ id ∈ globalPriceListId, id ∉ env.globalPriceListIds) (ruleCode "PRICE_LIST_NOT_FOUND")
  let bound ← sale.setGlobalPriceList globalPriceListId true
  reevaluate env bound

/-- The sale that a request saves, if it saves one. -/
def serve (env : DraftEnvironment) (actorId : String) (sale : Sale) :
    DraftMutation → Except DomainError (Option Sale)
  | .addItem itemId productId variantId quantity =>
      (addItem env actorId sale itemId productId variantId quantity).map some
  | .updateItemQuantity itemId quantity =>
      (updateItemQuantity env actorId sale itemId quantity).map some
  | .clearItems => (clearItems actorId sale).map some
  | .removeItem itemId => (removeItem env actorId sale itemId).map some
  | .overrideItemPrice itemId priceListId customPriceCents =>
      (overrideItemPrice env actorId sale itemId priceListId customPriceCents).map some
  | .applyItemDiscount itemId input =>
      (applyItemDiscount env actorId sale itemId input).map some
  | .removeItemDiscount itemId => (removeItemDiscount env actorId sale itemId).map some
  | .applyGlobalDiscount input strategy =>
      (applyGlobalDiscount env actorId sale input strategy).map some
  | .removeGlobalDiscount => (removeGlobalDiscount actorId sale).map some
  | .applyManualPromotion promotionId =>
      (applyManualPromotion env actorId sale promotionId).map some
  | .removeManualPromotion promotionId =>
      (removeManualPromotion env actorId sale promotionId).map some
  | .removeAppliedPromotion promotionId =>
      (removeAppliedPromotion env actorId sale promotionId).map some
  | .assignCustomer customerId shippingAddressId =>
      (assignCustomer env actorId sale customerId shippingAddressId).map some
  | .clearCustomer => clearCustomer actorId sale
  | .setSalePriceList globalPriceListId =>
      (setSalePriceList env actorId sale globalPriceListId).map some

end DraftService

end Houndfe.Sales
