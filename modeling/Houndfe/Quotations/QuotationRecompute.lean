import Houndfe.Quotations.Quotation
import Houndfe.Sales.Recompute

/-! `recomputePricingAndPromotions` of a quotation: clear what promotions left on the lines,
reprice the lines without a custom price and take their taxes again, evaluate the promotions
and apply what they give per unit. Rewards for a whole line are not carried. -/

namespace Houndfe.Quotations

open Promotions Products Traverse
open Houndfe.Sales (PricingEnvironment)

structure ProductTaxMetadata where
  ivaRate : QuotationIvaRateClassification
  chargeProductTaxes : Bool
  deriving DecidableEq, Repr

structure CustomerRow where
  id : String
  globalPriceListId : Option String
  email : Option String
  deriving DecidableEq, Repr

/-- What a request reads besides the quotation. -/
structure QuotationEnvironment where
  now : Int
  today : DayOfWeek
  catalog : ProductCatalog
  productTaxes : String → ProductTaxMetadata
  productCategoryBrand : String → Option (Option String × Option String)
  promotions : List Promotion
  customers : List CustomerRow
  globalPriceListIds : List String
  userIds : List String

namespace QuotationItem

def clearPromotion (item : QuotationItem) : QuotationItem :=
  if item.promotionId.isSome then item.removeDiscount else item

end QuotationItem

/-- The list a line is priced from: its own, else the bound one, else the default. -/
def effectiveListId (env : QuotationEnvironment) (globalPriceListId : Option String)
    (item : QuotationItem) : Option String :=
  item.appliedPriceListId.or (globalPriceListId.or env.catalog.defaultGlobalPriceListId)

/-- The price that a line without a custom one resolves to. -/
def resolveLinePrice (env : QuotationEnvironment) (globalPriceListId : Option String)
    (item : QuotationItem) : Option Int :=
  if item.priceSource = .custom then none
  else
    (effectiveListId env globalPriceListId item).bind fun listId =>
      env.catalog.prices.resolvePrice item.productId item.variantId listId item.quantity.val

/-- `repriceNonStickyLines` for one line. -/
def repriceNonStickyLine (env : QuotationEnvironment) (globalPriceListId : Option String)
    (item : QuotationItem) : Except DomainError QuotationItem :=
  match resolveLinePrice env globalPriceListId item with
  | none => .ok item
  | some resolvedCents => item.reprice ⟨resolvedCents, .priceList, item.appliedPriceListId⟩

/-- The line that got a price takes the taxes of its product as they are now. -/
def resnapshotLine (env : QuotationEnvironment) (globalPriceListId : Option String)
    (item : QuotationItem) : Except DomainError QuotationItem :=
  if (resolveLinePrice env globalPriceListId item).isSome then do
    let info ← env.catalog.getProductInfoForSale item.productId item.variantId
    let metadata := env.productTaxes info.productId
    return item.snapshotTaxClassification metadata.ivaRate metadata.chargeProductTaxes
  else .ok item

def buildPosEvalLine (env : QuotationEnvironment) (item : QuotationItem) : PosEvalLine where
  itemId := item.id
  productId := item.productId
  variantId := item.variantId
  quantity := item.quantity.val
  effectiveUnitPriceCents := item.unitPriceCents
  appliedGlobalPriceListId := item.appliedPriceListId.bind env.catalog.prices.globalIdOf
  categoryId := (env.productCategoryBrand item.productId).bind Prod.fst
  brandId := (env.productCategoryBrand item.productId).bind Prod.snd
  hasManualDiscount := false

def buildPosEvalInput (env : QuotationEnvironment) (draft : Quotation) : PosEvalInput where
  botEligibleOnly := false
  treatCustomerAsUnregistered := false
  now := env.now
  today := env.today
  customerId := draft.customerId
  lines := draft.items.map (buildPosEvalLine env)
  vetoedPromotionIds := draft.vetoedPromotionIds
  optedInManualPromotionIds := draft.optedInManualPromotionIds

/-- A reward is skipped. -/
def applyLineResultToItem (result : PosEvalLineResult) (item : QuotationItem) :
    Except DomainError QuotationItem :=
  match result with
  | .reward _ _ => .ok item
  | .perUnit perUnit => item.applyDiscount {
      type := perUnit.discountType
      amountCents := if perUnit.discountType = .amount then some perUnit.discountValue else none
      percent := if perUnit.discountType = .percentage then some perUnit.discountValue else none
      discountTitle := some perUnit.discountTitle
      promotionId := some perUnit.promotionId }

/-- A result whose line is gone is skipped. -/
def applyLineResults (lineResults : List PosEvalLineResult) (items : List QuotationItem) :
    Except DomainError (List QuotationItem) :=
  lineResults.foldlM (fun items result =>
    updateFirst (fun item => item.id = result.itemId) (applyLineResultToItem result) (.ok [])
      items) items

/-- The line with its base, unless it never had a tax snapshot. -/
def settleTaxableBase (item : QuotationItem) : Except DomainError QuotationItem :=
  if item.ivaRateClassification = none ∨ item.chargeProductTaxesSnapshot = none then .ok item
  else item.recomputeTaxableBase

/-- Opt out of every manual promotion that has nothing left to apply to. -/
def pruneOptIns (draft : Quotation) (targetableIds : List String) : Quotation :=
  { draft with
    optedInManualPromotionIds := draft.optedInManualPromotionIds.filter fun id =>
      targetableIds.contains id }

/-- The quotation as the engine sees it: cleared, repriced and with its taxes. -/
def prepareQuotation (env : QuotationEnvironment) (draft : Quotation) :
    Except DomainError Quotation := do
  let cleared := draft.items.map QuotationItem.clearPromotion
  let repriced ← cleared.mapM (repriceNonStickyLine env draft.globalPriceListId)
  let items ← repriced.mapM (resnapshotLine env draft.globalPriceListId)
  return { draft with items := items }

def recomputePricingAndPromotions (env : QuotationEnvironment) (draft : Quotation) :
    Except DomainError Quotation := do
  let prepared ← prepareQuotation env draft
  let input := buildPosEvalInput env prepared
  let result := evaluate input env.promotions
  let applied ← applyLineResults result.selection.lines prepared.items
  let targetableIds := targetableManualPromotionIds input (loadCandidates input env.promotions)
  let items ← applied.mapM settleTaxableBase
  return pruneOptIns { prepared with items := items } targetableIds

/-! ### What a recompute keeps -/

/-- No line is priced below zero. -/
def PricedLines (items : List QuotationItem) : Prop :=
  ∀ item ∈ items, item.Priced

section

variable {env : QuotationEnvironment} {globalPriceListId : Option String}
  {item updated : QuotationItem}

theorem clearPromotion_priced (hPriced : item.Priced) :
    item.clearPromotion.Priced ∧ item.clearPromotion.promotionId = none := by
  unfold QuotationItem.clearPromotion
  split
  · exact ⟨QuotationItem.removeDiscount_priced hPriced, rfl⟩
  · next h => exact ⟨hPriced, by simpa using h⟩

theorem repriceNonStickyLine_priced (hPriced : item.Priced) (hPromotion : item.promotionId = none)
    (h : repriceNonStickyLine env globalPriceListId item = .ok updated) : updated.Priced := by
  unfold repriceNonStickyLine at h
  split at h
  · cases h
    exact hPriced
  · exact QuotationItem.reprice_priced hPriced hPromotion h

theorem resnapshotLine_priced (hPriced : item.Priced)
    (h : resnapshotLine env globalPriceListId item = .ok updated) : updated.Priced := by
  unfold resnapshotLine at h
  split at h
  · obtain ⟨info, _, h⟩ := bind_eq_ok.mp h
    cases pure_eq_ok.mp h
    exact QuotationItem.snapshotTaxClassification_priced hPriced
  · cases h
    exact hPriced

theorem applyLineResultToItem_priced {result : PosEvalLineResult} (hPriced : item.Priced)
    (h : applyLineResultToItem result item = .ok updated) : updated.Priced := by
  cases result with
  | reward kind reward =>
      cases h
      exact hPriced
  | perUnit perUnit =>
      exact QuotationItem.applyDiscount_priced hPriced (Option.some_ne_none _) h

theorem applyLineResults_priced {lineResults : List PosEvalLineResult}
    {items out : List QuotationItem} (hPriced : PricedLines items)
    (h : applyLineResults lineResults items = .ok out) : PricedLines out := by
  unfold applyLineResults at h
  induction lineResults generalizing items with
  | nil =>
      cases pure_eq_ok.mp h
      exact hPriced
  | cons result rest ih =>
      rw [List.foldlM_cons] at h
      obtain ⟨middle, hMiddle, hRest⟩ := bind_eq_ok.mp h
      have hNext : PricedLines middle := forall_updateFirst hPriced
        (fun _ _ hLine hResult => applyLineResultToItem_priced hLine hResult)
        (fun extra hExtra => by cases hExtra; simp) hMiddle
      exact ih hNext hRest

theorem settleTaxableBase_priced (hPriced : item.Priced)
    (h : settleTaxableBase item = .ok updated) : updated.Priced := by
  unfold settleTaxableBase at h
  split at h
  · cases h
    exact hPriced
  · exact QuotationItem.recomputeTaxableBase_priced hPriced h

end

/-- The prepared quotation: the same but for its lines. -/
theorem prepareQuotation_eq_ok {env : QuotationEnvironment} {draft prepared : Quotation}
    (h : prepareQuotation env draft = .ok prepared) :
    ∃ items, prepared = { draft with items := items } ∧
      (PricedLines draft.items → PricedLines items) := by
  obtain ⟨repriced, hRepriced, h⟩ := bind_eq_ok.mp h
  obtain ⟨items, hItems, h⟩ := bind_eq_ok.mp h
  cases pure_eq_ok.mp h
  refine ⟨items, rfl, fun hPriced => ?_⟩
  have hMiddle : PricedLines repriced := by
    intro line hLine
    obtain ⟨cleared, hCleared, hLineOk⟩ := mem_mapM hRepriced hLine
    obtain ⟨item, hItem, rfl⟩ := List.mem_map.mp hCleared
    obtain ⟨hOk, hNone⟩ := clearPromotion_priced (hPriced item hItem)
    exact repriceNonStickyLine_priced hOk hNone hLineOk
  intro line hLine
  obtain ⟨before, hBefore, hLineOk⟩ := mem_mapM hItems hLine
  exact resnapshotLine_priced (hMiddle before hBefore) hLineOk

/-- A recompute changes the lines and the opt-ins, and keeps prices at zero or above. -/
theorem recompute_eq_ok {env : QuotationEnvironment} {draft recomputed : Quotation}
    (h : recomputePricingAndPromotions env draft = .ok recomputed) :
    ∃ items optedIn, recomputed =
        { draft with items := items, optedInManualPromotionIds := optedIn } ∧
      (PricedLines draft.items → PricedLines items) := by
  obtain ⟨prepared, hPrepared, h⟩ := bind_eq_ok.mp h
  obtain ⟨lines, rfl, hLines⟩ := prepareQuotation_eq_ok hPrepared
  obtain ⟨applied, hApplied, h⟩ := bind_eq_ok.mp h
  obtain ⟨items, hItems, h⟩ := bind_eq_ok.mp h
  cases pure_eq_ok.mp h
  refine ⟨items, _, rfl, fun hPriced => ?_⟩
  have hAppliedPriced := applyLineResults_priced (hLines hPriced) hApplied
  intro line hLine
  obtain ⟨before, hBefore, hLineOk⟩ := mem_mapM hItems hLine
  exact settleTaxableBase_priced (hAppliedPriced before hBefore) hLineOk

end Houndfe.Quotations
