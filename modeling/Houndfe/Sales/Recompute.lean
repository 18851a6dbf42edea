import Houndfe.Products.SaleInfo
import Houndfe.Promotions.PosEvaluate
import Houndfe.Sales.Sale

/-! `recomputePricingAndPromotions`: clear what promotions left on the lines, reprice the
lines that are not sticky, evaluate the promotions and apply what they select. -/

namespace Houndfe.Sales

open Promotions Products

/-- What a recompute reads besides the sale: the instant with its weekday, the catalog and
the active promotions. -/
structure PricingEnvironment where
  now : Int
  today : DayOfWeek
  catalog : PriceCatalog
  defaultGlobalPriceListId : Option String
  productCategoryBrand : String → Option (Option String × Option String)
  promotions : List Promotion

namespace SaleItem

/-- A discount that no promotion gave. -/
def hasManualDiscount (item : SaleItem) : Bool :=
  item.discountType.isSome && item.promotionId.isNone

def clearPromotion (item : SaleItem) : SaleItem :=
  if item.promotionId.isSome then item.removeDiscount else item

/-- A custom price and a manual discount keep the price of a line. -/
def isSticky (item : SaleItem) : Bool :=
  item.priceSource = .custom || item.hasManualDiscount

end SaleItem

/-- `repriceNonStickyLines` for one line; a list without a price for it changes nothing. -/
def repriceNonStickyLine (env : PricingEnvironment) (globalPriceListId : Option String)
    (item : SaleItem) : Except DomainError SaleItem :=
  if item.isSticky then .ok item
  else
    match item.appliedPriceListId.or (globalPriceListId.or env.defaultGlobalPriceListId) with
    | none => .ok item
    | some effectiveListId =>
        match env.catalog.resolvePrice item.productId item.variantId effectiveListId
          item.quantity.val with
        | none => .ok item
        | some resolvedCents => item.reprice ⟨resolvedCents, .priceList, item.appliedPriceListId⟩

def prepareLine (env : PricingEnvironment) (globalPriceListId : Option String) (item : SaleItem) :
    Except DomainError SaleItem :=
  repriceNonStickyLine env globalPriceListId item.clearPromotion

def buildPosEvalLine (env : PricingEnvironment) (item : SaleItem) : PosEvalLine where
  itemId := item.id
  productId := item.productId
  variantId := item.variantId
  quantity := item.quantity.val
  effectiveUnitPriceCents := item.baseCents
  appliedGlobalPriceListId := item.appliedPriceListId.bind env.catalog.globalIdOf
  categoryId := (env.productCategoryBrand item.productId).bind Prod.fst
  brandId := (env.productCategoryBrand item.productId).bind Prod.snd
  hasManualDiscount := item.hasManualDiscount

def buildPosEvalInput (env : PricingEnvironment) (sale : Sale) : PosEvalInput where
  botEligibleOnly := false
  treatCustomerAsUnregistered := false
  now := env.now
  today := env.today
  customerId := sale.customerId
  lines := sale.items.map (buildPosEvalLine env)
  vetoedPromotionIds := sale.vetoedPromotionIds
  optedInManualPromotionIds := sale.optedInManualPromotionIds

/-- A reward goes to the whole line, any other result to each of its units. -/
def applyLineResult (now : Int) (result : PosEvalLineResult) (item : SaleItem) :
    Except DomainError SaleItem :=
  match result with
  | .reward kind reward => item.applyBuyXGetYReward {
      lineDiscountCents := reward.lineDiscountCents
      perUnitRewardCents := reward.perUnitRewardCents
      discountTitle := some reward.discountTitle
      promotionId := reward.promotionId
      getDiscountPercent := reward.getDiscountPercent
      rewardKind := kind } now
  | .perUnit perUnit => item.applyDiscount {
      type := perUnit.discountType
      amountCents := if perUnit.discountType = .amount then some perUnit.discountValue else none
      percent := if perUnit.discountType = .percentage then some perUnit.discountValue else none
      discountTitle := some perUnit.discountTitle
      promotionId := some perUnit.promotionId } now

/-- A result whose line is gone is skipped. -/
def applyLineResults (now : Int) (lineResults : List PosEvalLineResult) (items : List SaleItem) :
    Except DomainError (List SaleItem) :=
  lineResults.foldlM (fun items result =>
    updateFirstItem (fun item => item.id = result.itemId) (applyLineResult now result) (.ok [])
      items) items

def applyOrderResult (sale : Sale) : Option PosEvalOrderResult → Sale
  | some order => sale.setAppliedOrderPromotion {
      promotionId := some order.promotionId
      discountType := some order.discountType
      discountValue := some order.discountValue
      discountAmountCents := order.discountAmountCents
      discountTitle := some order.discountTitle }
  | none => sale.clearAppliedOrderPromotion

/-- Opt out of every manual promotion that has nothing left to apply to. -/
def pruneOptIns (sale : Sale) (targetableIds : List String) : Sale :=
  { sale with
    optedInManualPromotionIds := sale.optedInManualPromotionIds.filter fun id =>
      targetableIds.contains id }

structure Recomputed where
  sale : Sale
  promotionCapacityDemands : List PromotionCapacityDemand
  capacityExcludedPromotionIds : List String

/-- The sale as the engine sees it: cleared and repriced. -/
def prepareSale (env : PricingEnvironment) (sale : Sale) : Except DomainError Sale := do
  sale.ensureDraft
  let items ← sale.items.mapM (prepareLine env sale.globalPriceListId)
  return { sale with items := items }

/-- The sale with its lines as the results left them, its order discount and the opt-ins
that still have a target. -/
def Recomputed.of (env : PricingEnvironment) (prepared : Sale) (items : List SaleItem) :
    Recomputed :=
  let input := buildPosEvalInput env prepared
  let result := evaluate input env.promotions
  let applied := applyOrderResult { prepared with items := items } result.selection.order
  let targetableIds := targetableManualPromotionIds input (loadCandidates input env.promotions)
  ⟨pruneOptIns applied targetableIds, result.selection.promotionCapacityDemands,
    result.capacityExcludedPromotionIds⟩

def recomputePricingAndPromotions (env : PricingEnvironment) (sale : Sale) :
    Except DomainError Recomputed := do
  let prepared ← prepareSale env sale
  let result := evaluate (buildPosEvalInput env prepared) env.promotions
  let items ← applyLineResults env.now result.selection.lines prepared.items
  return Recomputed.of env prepared items

theorem prepareSale_eq_ok {env : PricingEnvironment} {sale prepared : Sale} :
    prepareSale env sale = .ok prepared ↔ sale.status = .draft ∧ ∃ items,
      sale.items.mapM (prepareLine env sale.globalPriceListId) = .ok items ∧
        prepared = { sale with items := items } := by
  rw [prepareSale, bind_eq_ok]
  simp only [bind_eq_ok, pure_eq_ok, Sale.ensureDraft, throwIf_eq_ok, not_not]
  constructor
  · rintro ⟨_, hDraft, items, hItems, rfl⟩
    exact ⟨hDraft, items, hItems, rfl⟩
  · rintro ⟨hDraft, items, hItems, rfl⟩
    exact ⟨(), hDraft, items, hItems, rfl⟩

theorem recompute_eq_ok {env : PricingEnvironment} {sale : Sale} {recomputed : Recomputed} :
    recomputePricingAndPromotions env sale = .ok recomputed ↔ ∃ prepared items,
      prepareSale env sale = .ok prepared ∧
        applyLineResults env.now
            (evaluate (buildPosEvalInput env prepared) env.promotions).selection.lines
            prepared.items = .ok items ∧
          recomputed = Recomputed.of env prepared items := by
  rw [recomputePricingAndPromotions, bind_eq_ok]
  simp only [bind_eq_ok, pure_eq_ok]
  constructor
  · rintro ⟨prepared, hPrepared, items, hItems, rfl⟩
    exact ⟨prepared, items, hPrepared, hItems, rfl⟩
  · rintro ⟨prepared, items, hPrepared, hItems, rfl⟩
    exact ⟨prepared, hPrepared, items, hItems, rfl⟩

@[simp] theorem applyOrderResult_items (sale : Sale) (order : Option PosEvalOrderResult) :
    (applyOrderResult sale order).items = sale.items := by
  cases order <;> rfl

theorem Recomputed.of_items (env : PricingEnvironment) (prepared : Sale)
    (items : List SaleItem) : (Recomputed.of env prepared items).sale.items = items :=
  applyOrderResult_items _ _

end Houndfe.Sales
