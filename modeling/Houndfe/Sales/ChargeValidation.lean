import Houndfe.Sales.DraftService
import Houndfe.Sales.RecomputeAgain

/-! The price check of the charge against the prices that a recompute leaves. The two resolve
the list of a line along different branches: the default list counts with its tiers for the
recompute and without them for the charge, and a kept price is compared as if it were new. -/

namespace Houndfe.Sales

open Promotions Products Traverse

/-- An id that is set and not empty. -/
def setId (id : Option String) : Option String :=
  id.filter (· ≠ "")

/-- The bound list of a sale, read as `batchResolvePriceMap` reads it. -/
def resolveBoundPrice (env : DraftEnvironment) (item : SaleItem) (globalPriceListId : String) :
    Except DomainError Int :=
  match env.catalog.prices.resolvePrice item.productId item.variantId globalPriceListId
    item.quantity.val with
  | some cents => .ok cents
  | none => .error (ruleCode "PRICE_OUT_OF_DATE")

/-- The catalog price the charge compares a line with. -/
def resolveChargeValidationPrice (env : DraftEnvironment) (globalPriceListId : Option String)
    (item : SaleItem) : Except DomainError Int :=
  if item.priceSource = .priceList then
    match setId item.appliedPriceListId, setId globalPriceListId with
    | some listId, _ => env.catalog.prices.resolveListPrice listId item.productId item.variantId
        item.quantity.val
    | none, some listId => resolveBoundPrice env item listId
    | none, none => do
        let info ← env.catalog.getProductInfoForSale item.productId item.variantId
        return info.unitPriceCents
  else do
    let info ← env.catalog.getProductInfoForSale item.productId item.variantId
    return info.unitPriceCents

/-- One turn of the price check of `executeChargeDraft`. -/
def validatePrice (env : DraftEnvironment) (globalPriceListId : Option String)
    (item : SaleItem) : Except DomainError Unit :=
  if item.priceSource = .custom then .ok ()
  else do
    let currentCents ← resolveChargeValidationPrice env globalPriceListId item
    throwIf (currentCents ≠ item.baseCents) (ruleCode "PRICE_OUT_OF_DATE")

def validatePrices (env : DraftEnvironment) (sale : Sale) : Except DomainError Unit :=
  sale.items.forM (validatePrice env sale.globalPriceListId)

theorem validatePrice_eq_ok {env : DraftEnvironment} {globalPriceListId : Option String}
    {item : SaleItem} :
    validatePrice env globalPriceListId item = .ok () ↔ item.priceSource = .custom ∨
      resolveChargeValidationPrice env globalPriceListId item = .ok item.baseCents := by
  unfold validatePrice
  by_cases hCustom : item.priceSource = .custom
  · simp [hCustom]
  · rw [if_neg hCustom, bind_eq_ok]
    simp only [throwIf_eq_ok, not_not, hCustom, false_or]
    constructor
    · rintro ⟨cents, hCents, rfl⟩
      exact hCents
    · intro hCents
      exact ⟨_, hCents, rfl⟩

/-! ### What the check reads of a line -/

/-- The columns of a line that the check reads, and its price before any discount. -/
structure SamePrice (item other : SaleItem) : Prop where
  productId : other.productId = item.productId
  variantId : other.variantId = item.variantId
  quantity : other.quantity = item.quantity
  priceSource : other.priceSource = item.priceSource
  appliedPriceListId : other.appliedPriceListId = item.appliedPriceListId
  base : other.baseCents = item.baseCents

theorem SamePrice.validatePrice {item other : SaleItem} (h : SamePrice item other)
    (env : DraftEnvironment) (globalPriceListId : Option String) :
    Sales.validatePrice env globalPriceListId other =
      Sales.validatePrice env globalPriceListId item := by
  simp only [Sales.validatePrice, resolveChargeValidationPrice, resolveBoundPrice, h.productId,
    h.variantId, h.quantity, h.priceSource, h.appliedPriceListId, h.base]

theorem samePrice_clearPromotion (item : SaleItem) : SamePrice item item.clearPromotion := by
  unfold SaleItem.clearPromotion
  split
  · exact ⟨rfl, rfl, rfl, rfl, rfl, rfl⟩
  · exact ⟨rfl, rfl, rfl, rfl, rfl, rfl⟩

theorem isSticky_clearPromotion (item : SaleItem) :
    item.clearPromotion.isSticky = item.isSticky := by
  unfold SaleItem.clearPromotion
  split
  · next h =>
      have hManual : item.hasManualDiscount = false := by
        cases hId : item.promotionId with
        | none => simp [hId] at h
        | some id => simp [SaleItem.hasManualDiscount, hId]
      have hCleared : item.removeDiscount.hasManualDiscount = false := rfl
      rw [SaleItem.isSticky, SaleItem.isSticky, hManual, hCleared]
      rfl
  · rfl

/-- A result that is applied leaves the price before the discount. -/
theorem samePrice_applied {now : Int} {result : PosEvalLineResult} {item applied : SaleItem}
    (hUndiscounted : item.Undiscounted) (h : applyLineResult now result item = .ok applied) :
    SamePrice item applied := by
  cases result with
  | reward kind reward =>
      replace h := past (past (past h))
      cases pure_eq_ok.mp h
      exact ⟨rfl, rfl, rfl, rfl, rfl, hUndiscounted.baseCents.symm⟩
  | perUnit perUnit =>
      obtain ⟨_, _, h⟩ := bind_eq_ok.mp h
      obtain ⟨_, _, h⟩ := bind_eq_ok.mp h
      obtain ⟨_, _, h⟩ := bind_eq_ok.mp h
      obtain ⟨_, _, h⟩ := bind_eq_ok.mp h
      obtain ⟨_, _, h⟩ := bind_eq_ok.mp h
      cases pure_eq_ok.mp h
      exact ⟨rfl, rfl, rfl, rfl, rfl, rfl⟩

/-! ### The price of a line after the recompute -/

/-- The price that the recompute writes on a line, if it writes one. -/
def listPrice (env : PricingEnvironment) (globalPriceListId : Option String) (item : SaleItem) :
    Option Int :=
  if item.isSticky then none
  else
    (effectiveListId env globalPriceListId item).bind fun listId =>
      env.catalog.resolvePrice item.productId item.variantId listId item.quantity.val

theorem repriceNonStickyLine_eq (env : PricingEnvironment) (globalPriceListId : Option String)
    (item : SaleItem) :
    repriceNonStickyLine env globalPriceListId item =
      match listPrice env globalPriceListId item with
      | none => .ok item
      | some cents => item.reprice ⟨cents, .priceList, item.appliedPriceListId⟩ := by
  unfold repriceNonStickyLine listPrice effectiveListId
  cases item.isSticky with
  | true => rfl
  | false =>
      cases item.appliedPriceListId.or (globalPriceListId.or env.defaultGlobalPriceListId) with
      | none => rfl
      | some listId => rfl

/-- A line as the recompute leaves it: at the price of its list, or at the price it had. -/
structure PricedFrom (env : PricingEnvironment) (globalPriceListId : Option String)
    (item priced : SaleItem) : Prop where
  productId : priced.productId = item.productId
  variantId : priced.variantId = item.variantId
  quantity : priced.quantity = item.quantity
  appliedPriceListId : priced.appliedPriceListId = item.appliedPriceListId
  repriced : ∀ cents ∈ listPrice env globalPriceListId item,
    priced.priceSource = .priceList ∧ priced.baseCents = cents
  kept : listPrice env globalPriceListId item = none →
    priced.priceSource = item.priceSource ∧ priced.baseCents = item.baseCents

theorem listPrice_clearPromotion (env : PricingEnvironment) (globalPriceListId : Option String)
    (item : SaleItem) :
    listPrice env globalPriceListId item.clearPromotion =
      listPrice env globalPriceListId item := by
  have hSame := samePrice_clearPromotion item
  simp only [listPrice, effectiveListId, isSticky_clearPromotion, hSame.productId,
    hSame.variantId, hSame.quantity, hSame.appliedPriceListId]

theorem pricedFrom_prepareLine {env : PricingEnvironment} {globalPriceListId : Option String}
    {item prepared : SaleItem} (hTidy : item.Tidy)
    (h : prepareLine env globalPriceListId item = .ok prepared) :
    PricedFrom env globalPriceListId item prepared := by
  have hSame := samePrice_clearPromotion item
  have hList := listPrice_clearPromotion env globalPriceListId item
  rw [prepareLine, repriceNonStickyLine_eq] at h
  cases hPrice : listPrice env globalPriceListId item.clearPromotion with
  | none =>
      rw [hPrice] at h hList
      cases h
      refine ⟨hSame.productId, hSame.variantId, hSame.quantity, hSame.appliedPriceListId, ?_,
        fun _ => ⟨hSame.priceSource, hSame.base⟩⟩
      intro cents hCents
      rw [← hList] at hCents
      cases hCents
  | some cents =>
      rw [hPrice] at h hList
      replace h := past (past h)
      cases pure_eq_ok.mp h
      -- a line that is repriced has no discount left
      have hUndiscounted : item.clearPromotion.Undiscounted := by
        apply SaleItem.clearPromotion_tidy hTidy
        have hNotSticky : item.clearPromotion.isSticky = false := by
          cases hSticky : item.clearPromotion.isSticky with
          | false => rfl
          | true => simp [listPrice, hSticky] at hPrice
        have hManual := (Bool.or_eq_false_iff.mp hNotSticky).2
        simpa [SaleItem.hasManualDiscount, SaleItem.clearPromotion_promotionId] using hManual
      refine ⟨hSame.productId, hSame.variantId, hSame.quantity, hSame.appliedPriceListId, ?_, ?_⟩
      · intro other hOther
        rw [← hList] at hOther
        cases hOther
        exact ⟨rfl, (hUndiscounted.withListPrice cents).baseCents⟩
      · intro hNone
        rw [hNone] at hList
        cases hList

/-! ### When the charge accepts the price -/

/-- The register sells the line at this price of the default list, before any tier. -/
def SellsAt (env : DraftEnvironment) (item : SaleItem) (cents : Int) : Prop :=
  env.catalog.Sells item.productId item.variantId ∧
    env.catalog.prices.defaultPrice env.catalog.defaultGlobalPriceListId item.productId
      item.variantId = cents

/-- The list that a line at a list price is charged by: its own, else the one of the sale. -/
def namedList (globalPriceListId : Option String) (item : SaleItem) : Option String :=
  (setId item.appliedPriceListId).or (setId globalPriceListId)

/-- The condition on a line, before the recompute, under which the charge accepts its price. A
line that takes the price of its own list or of the sale's is accepted; one that takes the price
of the default list must not have reached a tier with another price; and one that keeps its
price must still have the price of its source, at its quantity. -/
structure ChargePriceHolds (env : DraftEnvironment) (globalPriceListId : Option String)
    (item : SaleItem) : Prop where
  ownList : ∀ cents listId, listPrice env.pricing globalPriceListId item = some cents →
    item.appliedPriceListId = some listId →
      env.catalog.prices.findApplicablePrice item.productId item.variantId listId
        item.quantity.val = some cents
  defaultList : ∀ cents, listPrice env.pricing globalPriceListId item = some cents →
    namedList globalPriceListId item = none → SellsAt env item cents
  keptOwn : ∀ listId, listPrice env.pricing globalPriceListId item = none →
    item.priceSource = .priceList → item.appliedPriceListId = some listId →
      env.catalog.prices.findApplicablePrice item.productId item.variantId listId
        item.quantity.val = some item.baseCents
  keptBound : ∀ listId, listPrice env.pricing globalPriceListId item = none →
    item.priceSource = .priceList → item.appliedPriceListId = none →
      setId globalPriceListId = some listId →
        env.catalog.prices.resolvePrice item.productId item.variantId listId
          item.quantity.val = some item.baseCents
  keptDefault : listPrice env.pricing globalPriceListId item = none →
    (item.priceSource = .priceList → namedList globalPriceListId item = none) →
      SellsAt env item item.baseCents

theorem setId_of_ne {id : Option String} (h : id ≠ some "") : setId id = id := by
  cases id with
  | none => rfl
  | some value =>
      have hValue : value ≠ "" := fun hEmpty => h (congrArg some hEmpty)
      simp [setId, hValue]

theorem sellsAt_iff {env : DraftEnvironment} {item : SaleItem} {cents : Int} :
    (do
      let info ← env.catalog.getProductInfoForSale item.productId item.variantId
      return info.unitPriceCents : Except DomainError Int) = .ok cents ↔
        SellsAt env item cents := by
  rw [SellsAt, ← ProductCatalog.getProductInfoForSale_eq_ok, bind_eq_ok]
  simp only [pure_eq_ok]

theorem resolveListPrice_eq_ok {env : DraftEnvironment} {item : SaleItem} {listId : String}
    {cents : Int} :
    env.catalog.prices.resolveListPrice listId item.productId item.variantId
        item.quantity.val = .ok cents ↔
      env.catalog.prices.findApplicablePrice item.productId item.variantId listId
        item.quantity.val = some cents := by
  unfold PriceCatalog.resolveListPrice
  split <;> simp_all

theorem resolveBoundPrice_eq_ok {env : DraftEnvironment} {item : SaleItem} {listId : String}
    {cents : Int} :
    resolveBoundPrice env item listId = .ok cents ↔
      env.catalog.prices.resolvePrice item.productId item.variantId listId item.quantity.val =
        some cents := by
  unfold resolveBoundPrice
  split <;> simp_all

section

variable {env : DraftEnvironment} {globalPriceListId : Option String} {item priced : SaleItem}

/-- The charge price of a line of a list, by the list that names it. -/
theorem resolveChargeValidationPrice_of_list (hSource : item.priceSource = .priceList)
    (hOwn : item.appliedPriceListId ≠ some "") (cents : Int) :
    resolveChargeValidationPrice env globalPriceListId item = .ok cents ↔
      (∀ listId, item.appliedPriceListId = some listId →
        env.catalog.prices.findApplicablePrice item.productId item.variantId listId
          item.quantity.val = some cents) ∧
      (∀ listId, item.appliedPriceListId = none → setId globalPriceListId = some listId →
        env.catalog.prices.resolvePrice item.productId item.variantId listId
          item.quantity.val = some cents) ∧
      (namedList globalPriceListId item = none → SellsAt env item cents) := by
  unfold resolveChargeValidationPrice namedList
  rw [if_pos hSource, setId_of_ne hOwn]
  cases hApplied : item.appliedPriceListId with
  | some listId => simp [resolveListPrice_eq_ok]
  | none =>
      cases hBound : setId globalPriceListId with
      | some listId => simp [resolveBoundPrice_eq_ok]
      | none =>
          constructor
          · exact fun h => ⟨by simp, by simp, fun _ => sellsAt_iff.mp h⟩
          · exact fun h => sellsAt_iff.mpr (h.2.2 rfl)

theorem resolveChargeValidationPrice_of_default (hSource : item.priceSource ≠ .priceList)
    (cents : Int) :
    resolveChargeValidationPrice env globalPriceListId item = .ok cents ↔
      SellsAt env item cents := by
  unfold resolveChargeValidationPrice
  rw [if_neg hSource, sellsAt_iff]

theorem SellsAt.congr (h : PricedFrom env.pricing globalPriceListId item priced) (cents : Int) :
    SellsAt env priced cents ↔ SellsAt env item cents := by
  simp only [SellsAt, h.productId, h.variantId]

/-- A line that the recompute left without a list of its own was priced from the sale's. -/
theorem listPrice_of_bound {cents : Int} {listId : String}
    (hPrice : listPrice env.pricing globalPriceListId item = some cents)
    (hOwn : item.appliedPriceListId = none) (hBound : setId globalPriceListId = some listId) :
    env.catalog.prices.resolvePrice item.productId item.variantId listId item.quantity.val =
      some cents := by
  have hList : globalPriceListId = some listId := by
    cases globalPriceListId with
    | none => cases hBound
    | some id =>
        exact (Option.filter_eq_some_iff.mp hBound).1
  unfold listPrice effectiveListId at hPrice
  split at hPrice
  · cases hPrice
  · rw [hOwn, hList] at hPrice
    exact hPrice

/-- The check of a line that was just recomputed, in terms of the line before. -/
theorem validatePrice_of_priced (hOwn : item.appliedPriceListId ≠ some "")
    (h : PricedFrom env.pricing globalPriceListId item priced) :
    validatePrice env globalPriceListId priced = .ok () ↔
      item.priceSource = .custom ∨ ChargePriceHolds env globalPriceListId item := by
  have hNamed : namedList globalPriceListId priced = namedList globalPriceListId item := by
    rw [namedList, namedList, h.appliedPriceListId]
  rw [validatePrice_eq_ok]
  cases hPrice : listPrice env.pricing globalPriceListId item with
  | some cents =>
      obtain ⟨hSource, hBase⟩ := h.repriced cents hPrice
      have hNotCustom : item.priceSource ≠ .custom := by
        intro hCustom
        simp [listPrice, SaleItem.isSticky, hCustom] at hPrice
      rw [resolveChargeValidationPrice_of_list hSource (h.appliedPriceListId ▸ hOwn), hBase,
        h.productId, h.variantId, h.quantity, h.appliedPriceListId, hNamed, SellsAt.congr h]
      simp only [hSource, hNotCustom, reduceCtorEq, false_or]
      constructor
      · rintro ⟨hOwnList, _, hDefault⟩
        constructor
        · intro other listId hOther
          cases hPrice.symm.trans hOther
          exact hOwnList listId
        · intro other hOther
          cases hPrice.symm.trans hOther
          exact hDefault
        · intro _ hNone
          cases hPrice.symm.trans hNone
        · intro _ hNone
          cases hPrice.symm.trans hNone
        · intro hNone
          cases hPrice.symm.trans hNone
      · intro hHolds
        exact ⟨fun listId => hHolds.ownList cents listId hPrice,
          fun listId hNone hBound => listPrice_of_bound hPrice hNone hBound,
          hHolds.defaultList cents hPrice⟩
  | none =>
      obtain ⟨hSource, hBase⟩ := h.kept hPrice
      rw [hSource, hBase]
      apply or_congr_right
      by_cases hList : item.priceSource = .priceList
      · rw [resolveChargeValidationPrice_of_list (hSource.trans hList)
          (h.appliedPriceListId ▸ hOwn), h.productId, h.variantId, h.quantity,
          h.appliedPriceListId, hNamed, SellsAt.congr h]
        constructor
        · rintro ⟨hOwnList, hBound, hDefault⟩
          constructor
          · intro _ _ hSome
            cases hPrice.symm.trans hSome
          · intro _ hSome
            cases hPrice.symm.trans hSome
          · exact fun listId _ _ => hOwnList listId
          · exact fun listId _ _ => hBound listId
          · exact fun _ hNamedNone => hDefault (hNamedNone hList)
        · intro hHolds
          exact ⟨fun listId => hHolds.keptOwn listId hPrice hList,
            fun listId => hHolds.keptBound listId hPrice hList,
            fun hNone => hHolds.keptDefault hPrice fun _ => hNone⟩
      · rw [resolveChargeValidationPrice_of_default (hSource ▸ hList), SellsAt.congr h]
        constructor
        · intro hSells
          constructor
          · intro _ _ hSome
            cases hPrice.symm.trans hSome
          · intro _ hSome
            cases hPrice.symm.trans hSome
          · exact fun _ _ hSourceList => absurd hSourceList hList
          · exact fun _ _ hSourceList => absurd hSourceList hList
          · exact fun _ _ => hSells
        · exact fun hHolds => hHolds.keptDefault hPrice fun hSourceList => absurd hSourceList hList

end

/-- Right after a recompute, with the same catalog, the charge accepts every price exactly when
each line is at a custom price or meets the condition: then the charge comes to the price that
the recompute wrote on the line or kept. -/
theorem recomputed_prices_accepted_iff (env : DraftEnvironment) (sale : Sale)
    (recomputed : Recomputed) (hWellFormed : sale.WellFormed)
    (hLists : ∀ item ∈ sale.items, item.appliedPriceListId ≠ some "")
    (h : recomputePricingAndPromotions env.pricing sale = .ok recomputed) :
    validatePrices env recomputed.sale = .ok () ↔
      ∀ item ∈ sale.items,
        item.priceSource = .custom ∨ ChargePriceHolds env sale.globalPriceListId item := by
  obtain ⟨prepared, _, hPrepared, _, _⟩ := recompute_eq_ok.mp h
  have hLines := (settles_of_recompute hWellFormed hPrepared h).lines
  have hList := (settles_of_recompute hWellFormed hPrepared h).globalPriceListId
  obtain ⟨_, items, hItems, rfl⟩ := prepareSale_eq_ok.mp hPrepared
  -- the check of a line is that of the prepared line, and so of the line before
  have hApplied : ∀ item ∈ items, ∀ applied,
      applyResultFor env.now (selectedLines env.pricing { sale with items := items }) item =
        .ok applied → SamePrice item applied := by
    intro item hItem applied hApply
    unfold applyResultFor at hApply
    split at hApply
    · next result hLookup =>
        obtain ⟨hResult, hKey⟩ := Keyed.lookup_eq_some hLookup
        obtain ⟨line, hLine, hUndiscounted, hLineKey, _⟩ :=
          ranked_of_selected hWellFormed hPrepared hResult
        have hSame : line = item := List.inj_on_of_nodup_map
          (prepared_ids hWellFormed hPrepared) hLine hItem (hLineKey.symm.trans hKey)
        exact samePrice_applied (hSame ▸ hUndiscounted) hApply
    · cases hApply
      exact ⟨rfl, rfl, rfl, rfl, rfl, rfl⟩
  have hCheck : ∀ item ∈ sale.items, ∀ priced ∈ items,
      prepareLine env.pricing sale.globalPriceListId item = .ok priced →
        (validatePrice env sale.globalPriceListId priced = .ok () ↔
          item.priceSource = .custom ∨ ChargePriceHolds env sale.globalPriceListId item) :=
    fun item hItem priced _ hPriced => validatePrice_of_priced (hLists item hItem)
      (pricedFrom_prepareLine (hWellFormed.tidy item hItem) hPriced)
  rw [validatePrices, forM_eq_ok_iff, hList]
  constructor
  · intro hAccepted item hItem
    obtain ⟨priced, hPriced, hPrepare⟩ := mem_of_mapM hItems hItem
    obtain ⟨applied, hAppliedMem, hApply⟩ := mem_of_mapM hLines hPriced
    rw [← hCheck item hItem priced hPriced hPrepare,
      ← (hApplied priced hPriced applied hApply).validatePrice]
    exact hAccepted applied hAppliedMem
  · intro hHolds applied hAppliedMem
    obtain ⟨priced, hPriced, hApply⟩ := mem_mapM hLines hAppliedMem
    obtain ⟨item, hItem, hPrepare⟩ := mem_mapM hItems hPriced
    rw [(hApplied priced hPriced applied hApply).validatePrice,
      hCheck item hItem priced hPriced hPrepare]
    exact hHolds item hItem

/-! ### A tier of the default list -/

/-- A product at ten pesos on the default list, and at eight from ten units on. -/
def tieredProduct : DraftEnvironment where
  now := 0
  today := .monday
  catalog := {
    products := [⟨"product", "Product", true, false⟩]
    variants := []
    prices := ⟨[⟨"product", "row", "publico", 1000, [⟨10, 800⟩]⟩], []⟩
    defaultGlobalPriceListId := some "publico"
    imageUrl := fun _ _ => none }
  productCategoryBrand _ := none
  promotions := []
  checkStockAvailability _ _ _ := .ok ⟨true, 10⟩
  customers := []
  customerAddresses := []
  globalPriceListIds := ["publico"]

/-- A line of the product at a price of the default list. -/
def tieredLine (quantity : Quantity) (unitPriceCents : Int) : SaleItem :=
  { SaleItem.fresh ⟨"line", "sale", "product", none, "Product", none, none, quantity.val,
    unitPriceCents, "MXN"⟩ quantity with priceSource := .priceList }

def tieredDraft (quantity : Quantity) (unitPriceCents : Int) : Sale :=
  { Sale.fresh "sale" "seller" with items := [tieredLine quantity unitPriceCents] }

theorem chargePriceHolds_below_tier :
    ChargePriceHolds tieredProduct none (tieredLine ⟨9, by decide⟩ 1000) := by
  have hPrice : listPrice tieredProduct.pricing none (tieredLine ⟨9, by decide⟩ 1000) =
      some 1000 := rfl
  constructor
  · intro _ _ _ hOwn
    cases hOwn
  · intro cents hCents _
    cases hPrice.symm.trans hCents
    exact ⟨⟨⟨_, rfl, rfl, rfl⟩, _, rfl⟩, rfl⟩
  · intro _ hNone
    cases hPrice.symm.trans hNone
  · intro _ hNone
    cases hPrice.symm.trans hNone
  · intro hNone
    cases hPrice.symm.trans hNone

/-- Nine units are charged at the price the recompute gave them. -/
theorem recomputed_prices_accepted_below_tier :
    validatePrices tieredProduct (tieredDraft ⟨9, by decide⟩ 1000) = .ok () := by
  have hRecompute : recomputePricingAndPromotions tieredProduct.pricing
      (tieredDraft ⟨9, by decide⟩ 1000) = .ok ⟨tieredDraft ⟨9, by decide⟩ 1000, [], []⟩ := rfl
  apply (recomputed_prices_accepted_iff _ _ _ ⟨by decide, by decide⟩ (by decide) hRecompute).mpr
  intro item hItem
  rw [List.mem_singleton.mp hItem]
  exact .inr chargePriceHolds_below_tier

/-- Ten units are saved at eight pesos, the recompute leaves them so, and the charge refuses
the price. -/
theorem recomputed_price_refused_from_tier :
    DraftService.serve tieredProduct "seller" (Sale.fresh "sale" "seller")
        (.addItem "line" "product" none 10) = .ok (some (tieredDraft ⟨10, by decide⟩ 800)) ∧
      recomputePricingAndPromotions tieredProduct.pricing (tieredDraft ⟨10, by decide⟩ 800) =
        .ok ⟨tieredDraft ⟨10, by decide⟩ 800, [], []⟩ ∧
      validatePrices tieredProduct (tieredDraft ⟨10, by decide⟩ 800) =
        .error (ruleCode "PRICE_OUT_OF_DATE") :=
  ⟨rfl, rfl, rfl⟩

end Houndfe.Sales
