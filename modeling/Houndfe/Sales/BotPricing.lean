import Houndfe.Sales.Recompute

/-! The draft of a bot order: built line by line from what the bot asks for, bound to the list
of the customer, and recomputed with the promotions that are open to the bot. The preview and
the confirmation share it; only the preview seeds the prices from the catalog. -/

namespace Houndfe.Sales

open Promotions Products

/-- A line of the order with the id that is drawn for it. A preview is asked for a product, a
quantity and an informational price only. -/
structure BotItem where
  itemId : String
  productId : String
  variantId : Option String
  productName : String
  variantName : Option String
  quantity : Int
  unitPriceCents : Int
  deriving DecidableEq, Repr

structure BotPricingInput where
  saleId : String
  customerId : Option String
  cashierUserId : String
  shippingAddressId : Option String
  items : List BotItem
  excludeRegisteredOnlyPromotions : Bool
  deriving DecidableEq, Repr

/-- A recompute whose evaluation reads what `evalInput` makes of the prepared sale. -/
def recomputeFrom (env : PricingEnvironment) (evalInput : Sale → PosEvalInput) (sale : Sale) :
    Except DomainError Recomputed := do
  let prepared ← prepareSale env sale
  let input := evalInput prepared
  let result := evaluate input env.promotions
  let items ← applyLineResults env.now result.selection.lines prepared.items
  let applied := applyOrderResult { prepared with items := items } result.selection.order
  let targetableIds := targetableManualPromotionIds input (loadCandidates input env.promotions)
  return ⟨pruneOptIns applied targetableIds, result.selection.promotionCapacityDemands,
    result.capacityExcludedPromotionIds⟩

/-- The recompute of the register is the one that reads `buildPosEvalInput`. -/
theorem recompute_eq_recomputeFrom (env : PricingEnvironment) (sale : Sale) :
    recomputePricingAndPromotions env sale = recomputeFrom env (buildPosEvalInput env) sale := rfl

/-- A line of the bot is on the list that the order is bound to, unless it has one of its own. -/
def botEvalLine (env : PricingEnvironment) (sale : Sale) (item : SaleItem) : PosEvalLine :=
  if item.appliedPriceListId = none then
    { buildPosEvalLine env item with
      appliedGlobalPriceListId := sale.globalPriceListId.or env.defaultGlobalPriceListId }
  else buildPosEvalLine env item

def botEvalInput (env : PricingEnvironment) (excludeRegisteredOnlyPromotions : Bool)
    (sale : Sale) : PosEvalInput :=
  { buildPosEvalInput env sale with
    botEligibleOnly := true
    treatCustomerAsUnregistered := excludeRegisteredOnlyPromotions
    lines := sale.items.map (botEvalLine env sale) }

def priceOutOfDate : DomainError := ruleCode "PRICE_OUT_OF_DATE"

/-- The price on the list of the order, or on the public list where that one has none. -/
def catalogPrice (env : PricingEnvironment) (sale : Sale) (item : SaleItem) : Option Int :=
  [sale.globalPriceListId, env.defaultGlobalPriceListId].reduceOption.findSome? fun listId =>
    env.catalog.resolvePrice item.productId item.variantId listId item.quantity.val

def seedBotPreviewPrice (env : PricingEnvironment) (sale : Sale) (item : SaleItem) :
    Except DomainError SaleItem :=
  match catalogPrice env sale item with
  | none => .error priceOutOfDate
  | some priceCents => item.reprice ⟨priceCents, .priceList, none⟩

def seedBotPreviewPrices (env : PricingEnvironment) (sale : Sale) : Except DomainError Sale := do
  let items ← sale.items.mapM (seedBotPreviewPrice env sale)
  return { sale with items := items }

def addBotItem (sale : Sale) (item : BotItem) : Except DomainError Sale :=
  sale.addItem {
    id := item.itemId
    saleId := sale.id
    productId := item.productId
    variantId := item.variantId
    productName := item.productName
    variantName := item.variantName
    imageUrl := none
    quantity := item.quantity
    unitPriceCents := item.unitPriceCents
    unitPriceCurrency := "MXN" }

/-- The order of a customer, if the bot knows one. -/
def assignBotCustomer (sale : Sale) (input : BotPricingInput) : Except DomainError Sale :=
  match input.customerId with
  | none => .ok sale
  | some customerId => sale.assignCustomer customerId input.shippingAddressId

/-- The order before its recompute. -/
def assembleBotSale (env : PricingEnvironment) (input : BotPricingInput)
    (customerList : Option String) (seedFromCatalog : Bool) : Except DomainError Sale := do
  let created ← Sale.create input.saleId input.cashierUserId
  let assigned ← assignBotCustomer created input
  let sold ← assigned.assignSeller input.cashierUserId
  let filled ← input.items.foldlM addBotItem sold
  let bound ← filled.setGlobalPriceList customerList false
  if seedFromCatalog then seedBotPreviewPrices env bound else return bound

def buildBotPricingSale (env : PricingEnvironment) (input : BotPricingInput)
    (customerList : Option String) (seedFromCatalog : Bool) : Except DomainError Recomputed := do
  let sale ← assembleBotSale env input customerList seedFromCatalog
  recomputeFrom env (botEvalInput env input.excludeRegisteredOnlyPromotions) sale

end Houndfe.Sales
