import Houndfe.Base.Grouping
import Houndfe.Promotions.Renaming
import Houndfe.Sales.BotPricing
import Houndfe.Sales.LineRewards
import Houndfe.Sales.PreparedLines
import Mathlib.Data.List.ReduceOption

/-! The lines of a bot order as the engine finds them: one for each product and variant, with
the units of all the items that ask for it, at the price of the list that the order is bound
to. What is left of the items besides is in no amount: a recompute of the bot gives two orders the
same amounts when their lines differ in ids, names and the source of the price only, and the new
ids keep the order of the lines that a promotion rewards. -/

namespace Houndfe.Sales

open Promotions Products

/-- The line under another id, without what no amount depends on. -/
def relabel (f : String → String) (item : SaleItem) : SaleItem :=
  { item with
    id := f item.id
    saleId := ""
    productName := ""
    variantName := none
    priceSource := .default }

theorem rename_id (result : PosEvalLineResult) : result.rename id = result := by
  cases result <;> rfl

section

variable {f : String → String}

theorem postLineSubtotalCents_relabel (items : List SaleItem) :
    Sale.postLineSubtotalCents (items.map (relabel f)) = Sale.postLineSubtotalCents items := by
  unfold Sale.postLineSubtotalCents
  rw [List.map_map]
  rfl

theorem applyDiscount_relabel (input : ApplySaleItemDiscountInput) (now : Int)
    (item : SaleItem) : (relabel f item).applyDiscount input now =
      (item.applyDiscount input now).map (relabel f) := by
  unfold SaleItem.applyDiscount
  simp only [map_bind]
  rfl

theorem applyBuyXGetYReward_relabel (input : ApplyBuyXGetYRewardInput) (now : Int)
    (item : SaleItem) : (relabel f item).applyBuyXGetYReward input now =
      (item.applyBuyXGetYReward input now).map (relabel f) := by
  unfold SaleItem.applyBuyXGetYReward
  simp only [map_bind]
  rfl

theorem applyLineResult_relabel (now : Int) (result : PosEvalLineResult) (item : SaleItem) :
    applyLineResult now (result.rename f) (relabel f item) =
      (applyLineResult now result item).map (relabel f) := by
  cases result with
  | perUnit perUnit => exact applyDiscount_relabel _ now item
  | reward kind reward => exact applyBuyXGetYReward_relabel _ now item

theorem updateFirstItem_relabel (hInjective : f.Injective) (now : Int)
    (result : PosEvalLineResult) (items : List SaleItem) :
    updateFirstItem (fun item => item.id = (result.rename f).itemId)
        (applyLineResult now (result.rename f)) (.ok []) (items.map (relabel f)) =
      (updateFirstItem (fun item => item.id = result.itemId) (applyLineResult now result) (.ok [])
        items).map (List.map (relabel f)) := by
  induction items with
  | nil => rfl
  | cons item rest ih =>
      have hHere : (relabel f item).id = (result.rename f).itemId ↔ item.id = result.itemId := by
        rw [PosEvalLineResult.renames f result]
        exact hInjective.eq_iff
      rw [List.map_cons, updateFirstItem, updateFirstItem]
      by_cases hItem : item.id = result.itemId
      · rw [if_pos (decide_eq_true (hHere.mpr hItem)), if_pos (decide_eq_true hItem),
          applyLineResult_relabel, map_bind]
        cases applyLineResult now result item <;> rfl
      · rw [if_neg (by simpa using fun hSame => hItem (hHere.mp hSame)),
          if_neg (by simpa using hItem), ih, map_bind]
        cases updateFirstItem _ (applyLineResult now result) (.ok []) rest <;> rfl

/-- Renamed results reach the lines under their new ids, and change them alike. -/
theorem applyLineResults_relabel (hInjective : f.Injective) (now : Int)
    (lineResults : List PosEvalLineResult) (items : List SaleItem) :
    applyLineResults now (lineResults.map (PosEvalLineResult.rename f)) (items.map (relabel f)) =
      (applyLineResults now lineResults items).map (List.map (relabel f)) := by
  unfold applyLineResults
  induction lineResults generalizing items with
  | nil => rfl
  | cons result rest ih =>
      rw [List.map_cons, List.foldlM_cons, List.foldlM_cons,
        updateFirstItem_relabel hInjective, map_bind]
      cases updateFirstItem _ (applyLineResult now result) (.ok []) items with
      | error e => rfl
      | ok updated => exact ih updated

theorem botEvalLine_relabel (env : PricingEnvironment) (sale : Sale) (item : SaleItem) :
    botEvalLine env sale (relabel f item) = (botEvalLine env sale item).rename f := by
  unfold botEvalLine
  change (if item.appliedPriceListId = none then _ else _) = _
  split <;> rfl

/-- The other order is this one under other labels. -/
structure Relabeled (f : String → String) (sale other : Sale) : Prop where
  lines : other.items.map (relabel id) = sale.items.map (relabel f)
  customerId : other.customerId = sale.customerId
  globalPriceListId : other.globalPriceListId = sale.globalPriceListId
  vetoedPromotionIds : other.vetoedPromotionIds = sale.vetoedPromotionIds
  optedInManualPromotionIds : other.optedInManualPromotionIds = sale.optedInManualPromotionIds

theorem Relabeled.botEvalInput {env : PricingEnvironment} {excludeRegisteredOnlyPromotions : Bool}
    {sale other : Sale} (h : Relabeled f sale other) :
    botEvalInput env excludeRegisteredOnlyPromotions other =
      (botEvalInput env excludeRegisteredOnlyPromotions sale).rename f := by
  have hLine : Sales.botEvalLine env other = Sales.botEvalLine env sale := by
    funext item
    unfold Sales.botEvalLine
    rw [h.globalPriceListId]
  have hLines : other.items.map (Sales.botEvalLine env other) =
      (sale.items.map (Sales.botEvalLine env sale)).map (PosEvalLine.rename f) := by
    calc other.items.map (Sales.botEvalLine env other)
      _ = (other.items.map (relabel id)).map (Sales.botEvalLine env other) := by
          rw [List.map_map]
          apply List.map_congr_left
          exact fun item _ => (botEvalLine_relabel (f := id) env other item).symm
      _ = (sale.items.map (relabel f)).map (Sales.botEvalLine env sale) := by rw [h.lines, hLine]
      _ = (sale.items.map (Sales.botEvalLine env sale)).map (PosEvalLine.rename f) := by
          rw [List.map_map, List.map_map]
          apply List.map_congr_left
          exact fun item _ => botEvalLine_relabel env sale item
  unfold Sales.botEvalInput buildPosEvalInput PosEvalInput.rename
  dsimp only
  rw [hLines, h.customerId, h.vetoedPromotionIds, h.optedInManualPromotionIds]

/-- Two orders that differ in their labels cost the same, if the labels sort the lines that
each promotion rewards alike. -/
theorem totalCents_relabeled {env : PricingEnvironment} {excludeRegisteredOnlyPromotions : Bool}
    {sale other prepared preparedOther : Sale} {recomputed recomputedOther : Recomputed}
    (hInjective : f.Injective) (hPrepared : prepareSale env sale = .ok prepared)
    (hPreparedOther : prepareSale env other = .ok preparedOther)
    (hRelabeled : Relabeled f prepared preparedOther)
    (hAlike : ∀ promo ∈ env.promotions, promo.botEligible = true → RewardsAlike f
      (Sales.botEvalInput env excludeRegisteredOnlyPromotions prepared).lines promo)
    (h : recomputeFrom env (Sales.botEvalInput env excludeRegisteredOnlyPromotions) sale =
      .ok recomputed)
    (hOther : recomputeFrom env (Sales.botEvalInput env excludeRegisteredOnlyPromotions) other =
      .ok recomputedOther) :
    recomputedOther.sale.previewTotals.totalCents =
      recomputed.sale.previewTotals.totalCents := by
  obtain ⟨_, hSame, h⟩ := bind_eq_ok.mp h
  cases hPrepared.symm.trans hSame
  obtain ⟨_, hSameOther, hOther⟩ := bind_eq_ok.mp hOther
  cases hPreparedOther.symm.trans hSameOther
  obtain ⟨items, hItems, h⟩ := bind_eq_ok.mp h
  cases pure_eq_ok.mp h
  obtain ⟨itemsOther, hItemsOther, hOther⟩ := bind_eq_ok.mp hOther
  cases pure_eq_ok.mp hOther
  have hLoaded : ∀ promo ∈ loadCandidates (Sales.botEvalInput env
      excludeRegisteredOnlyPromotions prepared) env.promotions, RewardsAlike f
        (Sales.botEvalInput env excludeRegisteredOnlyPromotions prepared).lines promo := by
    intro promo hPromo
    have hEligible : promo ∈ env.promotions.filter Promotion.botEligible := hPromo
    exact hAlike promo (List.mem_filter.mp hEligible).1 (List.mem_filter.mp hEligible).2
  have hSelection := evaluate_rename hInjective hLoaded
  rw [← hRelabeled.botEvalInput] at hSelection
  have hOut : itemsOther.map (relabel id) = items.map (relabel f) := by
    have hHere := applyLineResults_relabel hInjective env.now
      (evaluate (Sales.botEvalInput env excludeRegisteredOnlyPromotions prepared)
        env.promotions).selection.lines prepared.items
    have hThere := applyLineResults_relabel (f := id) Function.injective_id env.now
      (evaluate (Sales.botEvalInput env excludeRegisteredOnlyPromotions preparedOther)
        env.promotions).selection.lines preparedOther.items
    rw [hItems] at hHere
    rw [hItemsOther, hRelabeled.lines, List.map_congr_left fun result _ => rename_id result,
      List.map_id', hSelection] at hThere
    exact Except.ok.inj (hThere.symm.trans hHere)
  have hNet : Sale.postLineSubtotalCents itemsOther = Sale.postLineSubtotalCents items := by
    rw [← postLineSubtotalCents_relabel (f := id) itemsOther, hOut,
      postLineSubtotalCents_relabel]
  have hOrder : (evaluate (Sales.botEvalInput env excludeRegisteredOnlyPromotions preparedOther)
      env.promotions).selection.order =
        (evaluate (Sales.botEvalInput env excludeRegisteredOnlyPromotions prepared)
          env.promotions).selection.order := by
    rw [hSelection]
    rfl
  have hTotal : ∀ (draft : Sale) (lines : List SaleItem) (order : Option PosEvalOrderResult)
      (ids : List String),
      (pruneOptIns (applyOrderResult { draft with items := lines } order)
        ids).previewTotals.totalCents = max 0 (Sale.postLineSubtotalCents lines -
          (order.map PosEvalOrderResult.discountAmountCents).getD 0) := by
    intro draft lines order ids
    cases order <;> rfl
  rw [hTotal, hTotal, hNet, hOrder]

end

end Houndfe.Sales

/-! ### The lines of an order -/

namespace Houndfe.Sales

open Promotions Products Keyed Traverse

/-- The product and the variant that an item asks for, and how many of them. -/
structure Wanted where
  productId : String
  variantId : Option String
  quantity : Int
  deriving DecidableEq, Repr

namespace Wanted

def key (wanted : Wanted) : String × Option String :=
  (wanted.productId, wanted.variantId)

def add (kept wanted : Wanted) : Wanted :=
  { kept with quantity := kept.quantity + wanted.quantity }

end Wanted

namespace BotItem

def wanted (item : BotItem) : Wanted :=
  ⟨item.productId, item.variantId, item.quantity⟩

/-- `Sale.addItem` on the items: the first one keeps its id, its names and its price. -/
def stack (kept item : BotItem) : BotItem :=
  { kept with quantity := kept.quantity + item.quantity }

end BotItem

/-- One item for each product and variant. -/
def stackItems (items : List BotItem) : List BotItem :=
  groupRows (fun item => item.wanted.key) BotItem.stack items

theorem key_stack (kept item : BotItem) : (kept.stack item).wanted.key = kept.wanted.key := rfl

theorem wanted_stackItems (items : List BotItem) :
    (stackItems items).map BotItem.wanted = groupRows Wanted.key Wanted.add
      (items.map BotItem.wanted) :=
  map_groupRows (fun _ => rfl) (fun _ _ => rfl) items

/-- The units of a line are those of the items that ask for its product and variant. -/
theorem quantity_of_stackItems {items : List BotItem} {item : BotItem}
    (h : item ∈ stackItems items) : item.quantity =
      ((items.filter fun other => other.wanted.key = item.wanted.key).map
        BotItem.quantity).sum := by
  have hLookup : lookup (fun item => item.wanted.key) (stackItems items) item.wanted.key =
      some item := lookup_of_mem (nodup_groupRows items) h
  unfold stackItems at hLookup
  rw [lookup_groupRows key_stack] at hLookup
  have hAdd : ∀ kept item : BotItem, (kept.stack item).quantity = kept.quantity + item.quantity :=
    fun _ _ => rfl
  have hSum := sum_foldl_mergeInto hAdd hLookup
  rwa [Option.elim_none, Int.zero_add] at hSum

theorem itemId_stackItems (items : List BotItem) :
    ((stackItems items).map BotItem.itemId).Sublist (items.map BotItem.itemId) := by
  have hKept : ∀ kept item : BotItem, (kept.stack item).itemId = kept.itemId := fun _ _ => rfl
  exact sublist_groupRows key_stack hKept items

/-- A line without a discount. -/
def plainLine (itemId : String) (wanted : Wanted) (priceCents : Int) : SaleItem :=
  SaleItem.fresh {
    id := itemId
    saleId := ""
    productId := wanted.productId
    variantId := wanted.variantId
    productName := ""
    variantName := none
    imageUrl := none
    quantity := wanted.quantity
    unitPriceCents := priceCents
    unitPriceCurrency := "MXN" } ⟨max 1 wanted.quantity, le_max_left _ _⟩

/-- The line is what the item asks for, at this price. -/
structure LineOf (item : BotItem) (priceCents : Int) (line : SaleItem) : Prop where
  plain : relabel id line = plainLine item.itemId item.wanted priceCents
  quantity : line.quantity.val = item.quantity
  notCustom : line.priceSource ≠ .custom

namespace LineOf

variable {item : BotItem} {priceCents : Int} {line : SaleItem}

theorem isFor_iff (h : LineOf item priceCents line) (productId : String)
    (variantId : Option String) :
    line.isFor productId variantId = true ↔ item.wanted.key = (productId, variantId) := by
  have hProduct : line.productId = item.productId := congrArg SaleItem.productId h.plain
  have hVariant : line.variantId = item.variantId := congrArg SaleItem.variantId h.plain
  simp [SaleItem.isFor, Wanted.key, BotItem.wanted, hProduct, hVariant]

theorem promotionId (h : LineOf item priceCents line) : line.promotionId = none :=
  congrArg SaleItem.promotionId h.plain

theorem isSticky (h : LineOf item priceCents line) : line.isSticky = false := by
  have hType : line.discountType = none := congrArg SaleItem.discountType h.plain
  simp [SaleItem.isSticky, SaleItem.hasManualDiscount, hType, h.notCustom]

theorem create {props : SaleItemProps} (h : SaleItem.create props = .ok line)
    (hProps : props = {
      id := item.itemId
      saleId := props.saleId
      productId := item.productId
      variantId := item.variantId
      productName := item.productName
      variantName := item.variantName
      imageUrl := none
      quantity := item.quantity
      unitPriceCents := item.unitPriceCents
      unitPriceCurrency := "MXN" }) : LineOf item item.unitPriceCents line := by
  simp only [SaleItem.create, bind_eq_ok, throwIf_eq_ok, pure_eq_ok] at h
  obtain ⟨-, -, -, -, quantity, hQuantity, -, -, rfl⟩ := h
  rw [hProps] at hQuantity ⊢
  have hUnits := eq_of_checkQuantity hQuantity
  have hSame : quantity = ⟨max 1 item.quantity, le_max_left _ _⟩ := by
    apply Subtype.ext
    have hPositive := quantity.property
    rw [hUnits] at hPositive ⊢
    exact (max_eq_right hPositive).symm
  exact ⟨by rw [hSame]; rfl, hUnits, by simp [SaleItem.fresh]⟩

theorem changeQuantity {other : BotItem} {updated : SaleItem} {units : Int}
    (h : LineOf item priceCents line) (hUnits : units = line.quantity.val + other.quantity)
    (hUpdate : line.changeQuantity units = .ok updated) :
    LineOf (item.stack other) priceCents updated := by
  obtain ⟨quantity, hQuantity, hUpdate⟩ := bind_eq_ok.mp hUpdate
  cases pure_eq_ok.mp hUpdate
  have hValue : quantity.val = (item.stack other).quantity := by
    rw [eq_of_checkQuantity hQuantity, hUnits, h.quantity]
    rfl
  have hSame : quantity = ⟨max 1 (item.stack other).quantity, le_max_left _ _⟩ := by
    apply Subtype.ext
    have hPositive := quantity.property
    rw [hValue] at hPositive ⊢
    exact (max_eq_right hPositive).symm
  refine ⟨?_, hValue, h.notCustom⟩
  have hPlain := congrArg (fun line : SaleItem => { line with quantity := quantity }) h.plain
  rw [hSame] at hPlain ⊢
  exact hPlain

theorem reprice {newCents : Int} {updated : SaleItem} (h : LineOf item priceCents line)
    (hUpdate : line.reprice ⟨newCents, .priceList, none⟩ = .ok updated) :
    LineOf item newCents updated := by
  obtain ⟨_, _, hUpdate⟩ := bind_eq_ok.mp hUpdate
  obtain ⟨_, _, hUpdate⟩ := bind_eq_ok.mp hUpdate
  cases pure_eq_ok.mp hUpdate
  refine ⟨?_, h.quantity, nofun⟩
  exact congrArg (fun line : SaleItem => { line with
    unitPriceCents := newCents
    appliedPriceListId := none }) h.plain

end LineOf

/-! ### The order before its recompute -/

/-- The lines of the order, each at the price that its item is given. -/
def LinesOf (price : BotItem → Int) (items : List BotItem) (lines : List SaleItem) : Prop :=
  List.Forall₂ (fun item line => LineOf item (price item) line) items lines

/-- A further item is stacked on the line of its product and variant, or makes a line. -/
theorem LinesOf.stacks {stacked : List BotItem} {lines out : List SaleItem} {item : BotItem}
    {newItem : SaleItem} (hLines : LinesOf BotItem.unitPriceCents stacked lines)
    (hNew : LineOf item item.unitPriceCents newItem)
    (h : updateFirstItem (fun line => line.isFor item.productId item.variantId)
      (fun line => line.changeQuantity (line.quantity.val + newItem.quantity.val))
      (.ok [newItem]) lines = .ok out) :
    LinesOf BotItem.unitPriceCents
      (addToGroup (fun item => item.wanted.key) BotItem.stack stacked item) out := by
  unfold addToGroup
  induction hLines generalizing out with
  | nil =>
      cases h
      exact .cons hNew .nil
  | @cons first line rest lines hFirst hRest ih =>
      have hFor := hFirst.isFor_iff item.productId item.variantId
      change line.isFor item.productId item.variantId = true ↔
        first.wanted.key = item.wanted.key at hFor
      rw [updateFirstItem] at h
      rw [lookup_cons]
      by_cases hHere : first.wanted.key = item.wanted.key
      · rw [if_pos (hFor.mpr hHere)] at h
        obtain ⟨updated, hUpdated, h⟩ := bind_eq_ok.mp h
        cases pure_eq_ok.mp h
        rw [if_pos hHere, Option.elim_some, upsert, if_pos (key_stack first item).symm]
        exact .cons (hFirst.changeQuantity (by rw [hNew.quantity]) hUpdated) hRest
      · rw [if_neg fun hSame => hHere (hFor.mp hSame)] at h
        obtain ⟨tail, hTail, h⟩ := bind_eq_ok.mp h
        cases pure_eq_ok.mp h
        have hKey : ((lookup (fun item => item.wanted.key) rest item.wanted.key).elim item
            fun kept => kept.stack item).wanted.key = item.wanted.key := by
          cases hKept : lookup (fun item => item.wanted.key) rest item.wanted.key with
          | none => rfl
          | some kept => exact (lookup_eq_some hKept).2
        rw [if_neg hHere, upsert, hKey, if_neg hHere]
        exact .cons hFirst (ih hTail)

theorem addBotItem_lines {sale after : Sale} {stacked : List BotItem} {item : BotItem}
    (hLines : LinesOf BotItem.unitPriceCents stacked sale.items) (h : addBotItem sale item = .ok after) :
    LinesOf BotItem.unitPriceCents
        (addToGroup (fun item => item.wanted.key) BotItem.stack stacked item) after.items ∧
      after = { sale with items := after.items } := by
  replace h := past h
  obtain ⟨newItem, hCreated, h⟩ := bind_eq_ok.mp h
  obtain ⟨items, hItems, h⟩ := bind_eq_ok.mp h
  cases pure_eq_ok.mp h
  have hNew : LineOf item item.unitPriceCents newItem := LineOf.create hCreated rfl
  have hProduct : newItem.productId = item.productId := congrArg SaleItem.productId hNew.plain
  have hVariant : newItem.variantId = item.variantId := congrArg SaleItem.variantId hNew.plain
  rw [hProduct, hVariant] at hItems
  exact ⟨hLines.stacks hNew hItems, rfl⟩

theorem foldlM_addBotItem_lines {items stacked : List BotItem} {sale after : Sale}
    (hLines : LinesOf BotItem.unitPriceCents stacked sale.items) (h : items.foldlM addBotItem sale = .ok after) :
    LinesOf BotItem.unitPriceCents
        (items.foldl (addToGroup (fun item => item.wanted.key) BotItem.stack) stacked)
        after.items ∧ after = { sale with items := after.items } := by
  induction items generalizing sale stacked with
  | nil =>
      cases pure_eq_ok.mp h
      exact ⟨hLines, rfl⟩
  | cons item rest ih =>
      rw [List.foldlM_cons, bind_eq_ok] at h
      obtain ⟨middle, hMiddle, h⟩ := h
      obtain ⟨hAdded, hSame⟩ := addBotItem_lines hLines hMiddle
      obtain ⟨hAll, hAfter⟩ := ih hAdded h
      refine ⟨hAll, ?_⟩
      rw [hAfter, hSame]

theorem quantity_pos_of_foldlM {items : List BotItem} {sale after : Sale}
    (h : items.foldlM addBotItem sale = .ok after) : ∀ item ∈ items, 1 ≤ item.quantity := by
  induction items generalizing sale with
  | nil => exact fun _ hIn => absurd hIn List.not_mem_nil
  | cons item rest ih =>
      rw [List.foldlM_cons, bind_eq_ok] at h
      obtain ⟨middle, hMiddle, h⟩ := h
      rw [List.forall_mem_cons]
      refine ⟨?_, ih h⟩
      obtain ⟨_, _, hMiddle⟩ := bind_eq_ok.mp hMiddle
      obtain ⟨newItem, hCreated, _⟩ := bind_eq_ok.mp hMiddle
      have hNew : LineOf item item.unitPriceCents newItem := LineOf.create hCreated rfl
      rw [← hNew.quantity]
      exact newItem.quantity.property

/-- What the engine reads of the order besides its lines. -/
structure Header (input : BotPricingInput) (customerList : Option String) (sale : Sale) :
    Prop where
  customerId : sale.customerId = input.customerId
  globalPriceListId : sale.globalPriceListId = customerList
  vetoedPromotionIds : sale.vetoedPromotionIds = []
  optedInManualPromotionIds : sale.optedInManualPromotionIds = []

theorem assembleBotSale_lines {env : PricingEnvironment} {input : BotPricingInput}
    {customerList : Option String} {sale : Sale}
    (h : assembleBotSale env input customerList false = .ok sale) :
    LinesOf BotItem.unitPriceCents (stackItems input.items) sale.items ∧
      Header input customerList sale ∧ ∀ item ∈ input.items, 1 ≤ item.quantity := by
  obtain ⟨created, hCreated, h⟩ := bind_eq_ok.mp h
  obtain ⟨assigned, hAssigned, h⟩ := bind_eq_ok.mp h
  obtain ⟨sold, hSold, h⟩ := bind_eq_ok.mp h
  obtain ⟨filled, hFilled, h⟩ := bind_eq_ok.mp h
  obtain ⟨bound, hBound, h⟩ := bind_eq_ok.mp h
  cases pure_eq_ok.mp h
  have hOpened : sold.items = [] ∧ sold.customerId = input.customerId ∧
      sold.vetoedPromotionIds = [] ∧ sold.optedInManualPromotionIds = [] := by
    obtain ⟨_, _, hCreated⟩ := bind_eq_ok.mp hCreated
    obtain ⟨_, _, hCreated⟩ := bind_eq_ok.mp hCreated
    cases pure_eq_ok.mp hCreated
    obtain ⟨_, _, hSold⟩ := bind_eq_ok.mp hSold
    cases pure_eq_ok.mp hSold
    unfold assignBotCustomer at hAssigned
    split at hAssigned
    · next hNone =>
        cases hAssigned
        exact ⟨rfl, hNone.symm, rfl, rfl⟩
    · next customerId hCustomer =>
        obtain ⟨_, _, hAssigned⟩ := bind_eq_ok.mp hAssigned
        cases pure_eq_ok.mp hAssigned
        exact ⟨rfl, hCustomer.symm, rfl, rfl⟩
  obtain ⟨hEmpty, hCustomer, hVetoed, hOptedIn⟩ := hOpened
  have hNone : LinesOf BotItem.unitPriceCents [] sold.items := hEmpty ▸ .nil
  obtain ⟨hLines, hSame⟩ := foldlM_addBotItem_lines hNone hFilled
  obtain ⟨_, _, hBound⟩ := bind_eq_ok.mp hBound
  obtain ⟨_, _, hBound⟩ := bind_eq_ok.mp hBound
  cases pure_eq_ok.mp hBound
  refine ⟨hLines, ?_, quantity_pos_of_foldlM hFilled⟩
  rw [hSame]
  exact ⟨hCustomer, rfl, hVetoed, hOptedIn⟩

/-- A preview is the same order, each line at its catalog price. -/
theorem assembleBotSale_seeded {env : PricingEnvironment} {input : BotPricingInput}
    {customerList : Option String} {seeded : Sale}
    (h : assembleBotSale env input customerList true = .ok seeded) : ∃ sale,
      assembleBotSale env input customerList false = .ok sale ∧
        seedBotPreviewPrices env sale = .ok seeded := by
  obtain ⟨created, hCreated, h⟩ := bind_eq_ok.mp h
  obtain ⟨assigned, hAssigned, h⟩ := bind_eq_ok.mp h
  obtain ⟨sold, hSold, h⟩ := bind_eq_ok.mp h
  obtain ⟨filled, hFilled, h⟩ := bind_eq_ok.mp h
  obtain ⟨bound, hBound, h⟩ := bind_eq_ok.mp h
  refine ⟨bound, ?_, h⟩
  unfold assembleBotSale
  rw [bind_eq_ok]
  refine ⟨created, hCreated, ?_⟩
  rw [bind_eq_ok]
  refine ⟨assigned, hAssigned, ?_⟩
  rw [bind_eq_ok]
  refine ⟨sold, hSold, ?_⟩
  rw [bind_eq_ok]
  refine ⟨filled, hFilled, ?_⟩
  rw [bind_eq_ok]
  exact ⟨bound, hBound, rfl⟩

theorem LinesOf.mapM {f : SaleItem → Except DomainError SaleItem} {price newPrice : BotItem → Int}
    {items : List BotItem} {lines out : List SaleItem} (hLines : LinesOf price items lines)
    (hStep : ∀ item ∈ items, ∀ line updated, LineOf item (price item) line →
      f line = .ok updated → LineOf item (newPrice item) updated)
    (h : lines.mapM f = .ok out) : LinesOf newPrice items out := by
  induction hLines generalizing out with
  | nil =>
      cases h
      exact .nil
  | @cons item line items lines hFirst hRest ih =>
      obtain ⟨hHead, hTail⟩ := List.forall_mem_cons.mp hStep
      obtain ⟨updated, rest, hUpdated, hOut, rfl⟩ := mapM_cons_eq_ok.mp h
      exact .cons (hHead line updated hFirst hUpdated) (ih hTail hOut)

theorem LinesOf.relabel {price : BotItem → Int} {items : List BotItem} {lines : List SaleItem}
    (h : LinesOf price items lines) : lines.map (relabel id) =
      items.map fun item => plainLine item.itemId item.wanted (price item) := by
  induction h with
  | nil => rfl
  | cons hFirst _ ih => rw [List.map_cons, List.map_cons, hFirst.plain, ih]

theorem LinesOf.exists_line {price : BotItem → Int} {items : List BotItem}
    {lines : List SaleItem} (h : LinesOf price items lines) {item : BotItem} (hItem : item ∈ items) :
    ∃ line ∈ lines, LineOf item (price item) line := by
  induction h with
  | nil => cases hItem
  | cons hFirst _ ih =>
      rcases List.mem_cons.mp hItem with rfl | hRest
      · exact ⟨_, List.mem_cons_self, hFirst⟩
      · obtain ⟨line, hIn, hLine⟩ := ih hRest
        exact ⟨line, List.mem_cons_of_mem _ hIn, hLine⟩

/-! ### Prices -/

/-- The price on the list that the order is bound to. -/
def boundPrice (env : PricingEnvironment) (customerList : Option String) (wanted : Wanted) :
    Option Int :=
  (customerList.or env.defaultGlobalPriceListId).bind fun listId =>
    env.catalog.resolvePrice wanted.productId wanted.variantId listId wanted.quantity

def publicPrice (env : PricingEnvironment) (wanted : Wanted) : Option Int :=
  env.defaultGlobalPriceListId.bind fun listId =>
    env.catalog.resolvePrice wanted.productId wanted.variantId listId wanted.quantity

/-- The price of the catalog: on the list of the order, else on the public list. -/
def quotedPrice (env : PricingEnvironment) (customerList : Option String) (wanted : Wanted) :
    Int :=
  ((boundPrice env customerList wanted).or (publicPrice env wanted)).getD 0

section

variable {env : PricingEnvironment} {customerList : Option String}

/-- A line takes the price of the list that the order is bound to, or keeps what it has. -/
theorem LineOf.prepare {item : BotItem} {priceCents : Int} {line prepared : SaleItem}
    (h : LineOf item priceCents line)
    (hPrepared : prepareLine env customerList line = .ok prepared) :
    LineOf item ((boundPrice env customerList item.wanted).getD priceCents) prepared := by
  have hProduct : line.productId = item.productId := congrArg SaleItem.productId h.plain
  have hVariant : line.variantId = item.variantId := congrArg SaleItem.variantId h.plain
  have hList : line.appliedPriceListId = none := congrArg SaleItem.appliedPriceListId h.plain
  unfold prepareLine repriceNonStickyLine at hPrepared
  rw [SaleItem.clearPromotion_of_none h.promotionId, h.isSticky, hList, hProduct, hVariant,
    h.quantity, Option.none_or] at hPrepared
  unfold boundPrice BotItem.wanted
  cases hBound : customerList.or env.defaultGlobalPriceListId with
  | none =>
      rw [hBound] at hPrepared
      cases hPrepared
      exact h
  | some listId =>
      rw [hBound] at hPrepared
      rw [Option.bind_some]
      dsimp only at hPrepared ⊢
      cases hPrice : env.catalog.resolvePrice item.productId item.variantId listId
          item.quantity with
      | none =>
          rw [hPrice] at hPrepared
          cases hPrepared
          exact h
      | some resolvedCents =>
          rw [hPrice] at hPrepared
          exact h.reprice hPrepared

theorem catalogPrice_eq (sale : Sale) (item : SaleItem) : catalogPrice env sale item =
    (sale.globalPriceListId.bind fun listId =>
      env.catalog.resolvePrice item.productId item.variantId listId item.quantity.val).or
    (env.defaultGlobalPriceListId.bind fun listId =>
      env.catalog.resolvePrice item.productId item.variantId listId item.quantity.val) := by
  unfold catalogPrice
  cases sale.globalPriceListId with
  | none =>
      rw [List.reduceOption_cons_of_none]
      cases env.defaultGlobalPriceListId with
      | none => simp
      | some publicId => simp [List.reduceOption_cons_of_some]
  | some listId =>
      cases env.defaultGlobalPriceListId with
      | none => simp [List.reduceOption_cons_of_some]
      | some publicId =>
          simp only [List.reduceOption_cons_of_some, List.reduceOption_nil,
            List.findSome?_cons, List.findSome?_nil, Option.bind_some]
          cases env.catalog.resolvePrice item.productId item.variantId listId
              item.quantity.val with
          | none => cases env.catalog.resolvePrice _ _ publicId _ <;> rfl
          | some priceCents => rfl

/-- A preview seeds the price that it quotes. -/
theorem quotedPrice_of_catalogPrice {sale : Sale} {item : BotItem} {priceCents seedCents : Int}
    {line : SaleItem} (hList : sale.globalPriceListId = customerList)
    (h : LineOf item priceCents line) (hSeed : catalogPrice env sale line = some seedCents) :
    quotedPrice env customerList item.wanted = seedCents := by
  have hProduct : line.productId = item.productId := congrArg SaleItem.productId h.plain
  have hVariant : line.variantId = item.variantId := congrArg SaleItem.variantId h.plain
  rw [catalogPrice_eq, hList, hProduct, hVariant, h.quantity] at hSeed
  unfold quotedPrice boundPrice publicPrice BotItem.wanted
  cases customerList with
  | none =>
      rw [Option.bind_none, Option.none_or] at hSeed
      rw [Option.none_or, Option.or_self, hSeed]
      rfl
  | some listId =>
      rw [Option.bind_some] at hSeed
      rw [Option.some_or, Option.bind_some, hSeed]
      rfl

/-- Repricing leaves the price that is quoted. -/
theorem boundPrice_getD_quotedPrice (wanted : Wanted) :
    (boundPrice env customerList wanted).getD (quotedPrice env customerList wanted) =
      quotedPrice env customerList wanted := by
  unfold quotedPrice
  cases boundPrice env customerList wanted <;> rfl

theorem prepared_of_preview {input : BotPricingInput} {seeded prepared : Sale}
    (hSeeded : assembleBotSale env input customerList true = .ok seeded)
    (h : prepareSale env seeded = .ok prepared) :
    LinesOf (fun item => quotedPrice env customerList item.wanted) (stackItems input.items)
        prepared.items ∧ Header input customerList prepared := by
  obtain ⟨sale, hSale, hSeed⟩ := assembleBotSale_seeded hSeeded
  obtain ⟨hLines, hHeader, _⟩ := assembleBotSale_lines hSale
  obtain ⟨items, hItems, hSeed⟩ := bind_eq_ok.mp hSeed
  cases pure_eq_ok.mp hSeed
  obtain ⟨_, kept, hKept, rfl⟩ := prepareSale_eq_ok.mp h
  have hSeeds : LinesOf (fun item => quotedPrice env customerList item.wanted)
      (stackItems input.items) items := by
    refine hLines.mapM ?_ hItems
    intro item _ line updated hLine hUpdated
    unfold seedBotPreviewPrice at hUpdated
    cases hSeed : catalogPrice env sale line with
    | none =>
        rw [hSeed] at hUpdated
        cases hUpdated
    | some seedCents =>
        rw [hSeed] at hUpdated
        rw [quotedPrice_of_catalogPrice hHeader.globalPriceListId hLine hSeed]
        exact hLine.reprice hUpdated
  refine ⟨hSeeds.mapM ?_ hKept, hHeader.customerId, hHeader.globalPriceListId,
    hHeader.vetoedPromotionIds, hHeader.optedInManualPromotionIds⟩
  intro item _ line updated hLine hUpdated
  have hList : sale.globalPriceListId = customerList := hHeader.globalPriceListId
  rw [hList] at hUpdated
  have hPrepared := hLine.prepare hUpdated
  rwa [boundPrice_getD_quotedPrice] at hPrepared

/-- The engine sees a confirmation at the price of the bound list, and where that has none at
the price that the first item submits. -/
theorem prepared_of_confirmation {input : BotPricingInput} {sale prepared : Sale}
    (hSale : assembleBotSale env input customerList false = .ok sale)
    (h : prepareSale env sale = .ok prepared) :
    LinesOf (fun item => (boundPrice env customerList item.wanted).getD item.unitPriceCents)
        (stackItems input.items) prepared.items ∧ Header input customerList prepared := by
  obtain ⟨hLines, hHeader, _⟩ := assembleBotSale_lines hSale
  obtain ⟨_, kept, hKept, rfl⟩ := prepareSale_eq_ok.mp h
  refine ⟨hLines.mapM ?_ hKept, hHeader.customerId, hHeader.globalPriceListId,
    hHeader.vetoedPromotionIds, hHeader.optedInManualPromotionIds⟩
  intro item _ line updated hLine hUpdated
  rw [hHeader.globalPriceListId] at hUpdated
  exact hLine.prepare hUpdated

end

end Houndfe.Sales
